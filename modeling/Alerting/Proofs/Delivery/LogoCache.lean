import Alerting.Proofs.Delivery.Pictures
/-!
# The logo that is kept

A dispatcher keeps one logo with the address that it came from.  However the settings change from
mail to mail and whatever the logo host replies, what is kept is the last logo that was loaded from
its address, and a mail shows a logo from the address in its own settings only.  The host is asked
only for an address that holds no content itself and is not the one that is kept.
-/

namespace Alerting.Delivery

open Dialogue Email

/-! ## Loading -/

def logoOf (media : Text.Media) : InlineImage :=
  ⟨logoContentId, media.mime, media.bytes⟩

def replyLogo? : Http.Reply → Option InlineImage
  | .error _ => none
  | .ok r =>
    if r.isSuccess then some (logoOf ⟨r.contentType.getD "image/png", r.body⟩) else none

def lookups (exchanges : List ((n : Need) × n.Reply)) : List (String × Http.Reply) :=
  exchanges.filterMap fun
    | ⟨.fetch request, reply⟩ => some (request.url, reply)
    | _ => none

/-- The logo of the last load from an address that succeeded, after these lookups.  An address that
holds its content is loaded without a lookup. -/
def lastLogo? (source : String) (lookups : List (String × Http.Reply)) : Option InlineImage :=
  match Text.mediaOfUri? source with
  | some media => some (logoOf media)
  | none => ((lookups.filter (·.1 = source)).filterMap (replyLogo? ·.2)).getLast?

/-- How a mail comes by its logo: what is kept before, the address in the settings, the lookups, the
logo of the mail, and what is kept after it. -/
inductive LogoCourse (kept : LogoCache) :
    Option String → List (String × Http.Reply) → Option InlineImage → LogoCache → Prop
  | unwanted : LogoCourse kept none [] none kept
  | known {source : String} {image : InlineImage} (h : kept = some (source, image)) :
    LogoCourse kept (some source) [] (some image) kept
  | contained {source : String} {media : Text.Media} (hother : ∀ image, kept ≠ some (source, image))
      (hmedia : Text.mediaOfUri? source = some media) :
    LogoCourse kept (some source) [] (some (logoOf media)) (some (source, logoOf media))
  | loaded {source : String} {reply : Http.Reply} {image : InlineImage}
      (hother : ∀ image, kept ≠ some (source, image)) (hmedia : Text.mediaOfUri? source = none)
      (hreply : replyLogo? reply = some image) :
    LogoCourse kept (some source) [(source, reply)] (some image) (some (source, image))
  | lost {source : String} {reply : Http.Reply} (hother : ∀ image, kept ≠ some (source, image))
      (hmedia : Text.mediaOfUri? source = none) (hreply : replyLogo? reply = none) :
    LogoCourse kept (some source) [(source, reply)] none kept

section Course

variable {σ : Type} (people : (n : Need) → σ → n.Reply × σ)

theorem logoCourse_fetchLogo {kept : LogoCache} {source : String}
    (hother : ∀ image, kept ≠ some (source, image)) (m : σ) :
    let fetching := fetchLogo source
    let logo := (fetching.run people m).1.toOption.map logoOf
    LogoCourse kept (some source) (lookups (fetching.exchanges people m)) logo
      (logo.elim kept fun image => some (source, image)) := by
  unfold fetchLogo
  cases hmedia : Text.mediaOfUri? source with
  | some media => exact .contained hother hmedia
  | none =>
      dsimp only
      rw [run_seq, exchanges_seq, run_need, exchanges_need]
      cases (people (.fetch { method := .get, url := source }) m).1 with
      | error reason => exact .lost hother hmedia rfl
      | ok r =>
          dsimp only
          cases hsuccess : r.isSuccess with
          | true => exact .loaded hother hmedia (if_pos hsuccess)
          | false => exact .lost hother hmedia (if_neg (by simp [hsuccess]))

theorem logoCourse_loadLogo (kept : LogoCache) (source : String) (m : σ) :
    let loading := loadLogo kept source
    let found := (loading.run people m).1
    LogoCourse kept (some source) (lookups (loading.exchanges people m)) found.1.toOption
      found.2 := by
  unfold loadLogo
  cases hfilter : kept.filter (·.1 = source) with
  | some entry =>
      obtain ⟨hkept, hsource⟩ := Option.filter_eq_some_iff.mp hfilter
      obtain rfl : entry.1 = source := by simpa using hsource
      exact .known hkept
  | none =>
      have hother : ∀ image, kept ≠ some (source, image) := by
        rintro image rfl
        simp at hfilter
      have hcourse := logoCourse_fetchLogo people hother m
      dsimp only at hcourse ⊢
      rw [run_seq, exchanges_seq]
      cases hfound : ((fetchLogo source).run people m).1 with
      | error e =>
          rw [hfound] at hcourse
          rw [exchanges_pure, List.append_nil]
          exact hcourse
      | ok media =>
          rw [hfound] at hcourse
          rw [exchanges_pure, List.append_nil]
          exact hcourse

theorem logoCourse_logoFor (kept : LogoCache) (s : EmailSettings) (m : σ) :
    let looking := logoFor kept s
    let found := (looking.run people m).1
    LogoCourse kept s.logoSource? (lookups (looking.exchanges people m)) found.1 found.2 := by
  unfold logoFor
  cases s.logoSource? with
  | none => exact .unwanted
  | some source =>
      dsimp only
      rw [run_seq, exchanges_seq, exchanges_pure, List.append_nil]
      exact logoCourse_loadLogo people kept source m

/-- The address of the logo in the settings that a mail is sent with, if it is sent at all. -/
def Mail.logoSource? (mail : Mail) (loaded : Except Failure (Option EmailSettings)) :
    Option String :=
  (mail.settings loaded).toOption.bind EmailSettings.logoSource?

theorem lookups_append (before after : List ((n : Need) × n.Reply)) :
    lookups (before ++ after) = lookups before ++ lookups after :=
  List.filterMap_append

theorem lookups_sendFramed (s : EmailSettings) (mail : Mail) (logo : Option InlineImage) (m : σ) :
    lookups ((sendFramed s mail logo).exchanges people m) = [] := by
  refine List.filterMap_eq_nil_iff.mpr fun e he => ?_
  have hmailing := (asks_sendFramed s mail logo).of_mem_exchanges he
  obtain ⟨n, reply⟩ := e
  cases n with
  | fetch request => exact hmailing.elim
  | _ => rfl

/-- Whether all letters show the pictures of a mail and then a logo, if there is one. -/
def ShowLogo (mail : Mail) (logo : Option InlineImage) (letters : List (MailServer × Letter)) :
    Prop :=
  ∀ sent ∈ letters, (mail.images ++ logo.toList).mapM Letter.picture = .ok sent.2.pictures

theorem showLogo_sendFramed (s : EmailSettings) (mail : Mail) (logo : Option InlineImage) (m : σ) :
    ShowLogo mail logo (transmissions ((sendFramed s mail logo).exchanges people m)) := by
  rintro ⟨server, letter⟩ hsent
  have hletter := letter_of_mem_transmissions people hsent
  unfold EmailSettings.letter at hletter
  obtain ⟨sender, -, hbuild⟩ := Json.exists_of_bind_eq_ok hletter
  exact (Letter.pictures_of_build hbuild).2

/-- A mail comes by its logo in one of these ways, and this is the logo that it shows. -/
theorem exists_logoCourse_sendEmail (d : Dispatcher) (mail : Mail) (m : σ) :
    let sending := d.sendEmail mail
    let exchanges := sending.exchanges people m
    let after := (sending.run people m).1.2
    ∃ logo,
      LogoCourse d.logo (mail.logoSource? (people .emailSettings m).1) (lookups exchanges) logo
        after.logo ∧
      ShowLogo mail logo (transmissions exchanges) := by
  dsimp only
  have hkept : ((d.sendEmail mail).run people m).1.2.logo =
      ((tryEmail d.logo mail).run people m).1.2 := by
    rw [Dispatcher.sendEmail, Dialogue.run_seq]
    rfl
  rw [hkept, (sendEmail_eq people mail d).2]
  unfold Mail.logoSource?
  cases hsettings : mail.settings (people .emailSettings m).1 with
  | error e =>
      obtain ⟨hrun, hexchanges⟩ := tryEmail_of_error people d.logo mail hsettings
      rw [hrun, hexchanges]
      exact ⟨none, .unwanted, List.forall_mem_nil _⟩
  | ok settings =>
      obtain ⟨hrun, hexchanges⟩ := tryEmail_of_ok people d.logo mail hsettings
      rw [hrun, hexchanges]
      refine ⟨((logoFor d.logo settings).run people (people .emailSettings m).2).1.1, ?_, ?_⟩
      · change LogoCourse d.logo settings.logoSource? (lookups (_ ++ _)) _ _
        rw [lookups_append, lookups_sendFramed, List.append_nil]
        exact logoCourse_logoFor people d.logo settings _
      · change ShowLogo mail _ (transmissions (_ ++ _))
        rw [transmissions_append, transmissions_logoFor]
        exact showLogo_sendFramed people settings mail _ _

end Course

/-! ## What is kept -/

theorem lastLogo?_append (source : String) (before after : List (String × Http.Reply)) :
    lastLogo? source (before ++ after) =
      (lastLogo? source after).or (lastLogo? source before) := by
  unfold lastLogo?
  cases Text.mediaOfUri? source with
  | some media => rfl
  | none => simp only [List.filter_append, List.filterMap_append, List.getLast?_append]

theorem lastLogo?_concat_of_lost {source' : String} {reply : Http.Reply}
    (hreply : replyLogo? reply = none) (source : String) (history : List (String × Http.Reply)) :
    lastLogo? source (history ++ [(source', reply)]) = lastLogo? source history := by
  unfold lastLogo?
  cases Text.mediaOfUri? source with
  | some media => rfl
  | none =>
      have hnone : ([(source', reply)].filter (·.1 = source)).filterMap (replyLogo? ·.2) = [] := by
        refine List.filterMap_eq_nil_iff.mpr fun lookup hlookup => ?_
        obtain rfl := List.mem_singleton.mp (List.mem_filter.mp hlookup).1
        exact hreply
      simp only [List.filter_append, List.filterMap_append, hnone, List.append_nil]

theorem lastLogo?_concat_of_loaded {source : String} {reply : Http.Reply} {image : InlineImage}
    (hmedia : Text.mediaOfUri? source = none) (hreply : replyLogo? reply = some image)
    (history : List (String × Http.Reply)) :
    lastLogo? source (history ++ [(source, reply)]) = some image := by
  have hlast : lastLogo? source [(source, reply)] = some image := by
    simp [lastLogo?, hmedia, hreply]
  rw [lastLogo?_append, hlast, Option.some_or]

/-- Whether the logo that is kept, if any, is that of the last load from its address. -/
def LogoCache.IsLast (kept : LogoCache) (history : List (String × Http.Reply)) : Prop :=
  ∀ source image, kept = some (source, image) → lastLogo? source history = some image

namespace LogoCourse

variable {kept after : LogoCache} {source? : Option String} {new : List (String × Http.Reply)}
  {logo : Option InlineImage} (h : LogoCourse kept source? new logo after)

include h

/-- The logo that a mail shows is kept with the address in its settings. -/
theorem kept_of_shown {image : InlineImage} (hlogo : logo = some image) :
    ∃ source, source? = some source ∧ after = some (source, image) := by
  cases h with
  | unwanted => cases hlogo
  | known hknown =>
      cases hlogo
      exact ⟨_, rfl, hknown⟩
  | contained hother hmedia =>
      cases hlogo
      exact ⟨_, rfl, rfl⟩
  | loaded hother hmedia hreply =>
      cases hlogo
      exact ⟨_, rfl, rfl⟩
  | lost hother hmedia hreply => cases hlogo

theorem isLast {history : List (String × Http.Reply)} (hkept : kept.IsLast history) :
    after.IsLast (history ++ new) := by
  cases h with
  | unwanted =>
      rw [List.append_nil]
      exact hkept
  | known hknown =>
      rw [List.append_nil]
      exact hkept
  | contained hother hmedia =>
      rintro _ _ ⟨⟩
      rw [lastLogo?, hmedia]
  | loaded hother hmedia hreply =>
      rintro _ _ ⟨⟩
      exact lastLogo?_concat_of_loaded hmedia hreply history
  | lost hother hmedia hreply =>
      intro source image hentry
      rw [lastLogo?_concat_of_lost hreply]
      exact hkept source image hentry

/-- A load that fails gives no logo, and what is kept stays. -/
theorem of_not_loaded {source : String} {reply : Http.Reply} (hlookup : (source, reply) ∈ new)
    (hreply : replyLogo? reply = none) : logo = none ∧ after = kept := by
  cases h with
  | unwanted => cases hlookup
  | known hknown => cases hlookup
  | contained hother hmedia => cases hlookup
  | loaded hother hmedia hloaded =>
      cases List.mem_singleton.mp hlookup
      cases hloaded.symm.trans hreply
  | lost hother hmedia hlost => exact ⟨rfl, rfl⟩

/-- Only the address in the settings is looked up, when it holds no content and is not known. -/
theorem of_mem_lookups {source : String} {reply : Http.Reply} (hlookup : (source, reply) ∈ new) :
    source? = some source ∧ Text.mediaOfUri? source = none ∧
      ∀ image, kept ≠ some (source, image) := by
  cases h with
  | unwanted => cases hlookup
  | known hknown => cases hlookup
  | contained hother hmedia => cases hlookup
  | loaded hother hmedia hreply =>
      cases List.mem_singleton.mp hlookup
      exact ⟨rfl, hmedia, hother⟩
  | lost hother hmedia hreply =>
      cases List.mem_singleton.mp hlookup
      exact ⟨rfl, hmedia, hother⟩

end LogoCourse

section Sends

variable {σ : Type} (people : (n : Need) → σ → n.Reply × σ)

/-- However many mails are sent, the logo that is kept is that of the last load from its address. -/
theorem isLast_afterAll {d : Dispatcher} {history : List (String × Http.Reply)}
    (hd : d.logo.IsLast history) (mails : List Mail) (m : σ) :
    let sends := d.afterAll (mails.map .email)
    (sends.run people m).1.logo.IsLast (history ++ lookups (sends.exchanges people m)) := by
  induction mails generalizing d history m with
  | nil =>
      change d.logo.IsLast (history ++ [])
      rw [List.append_nil]
      exact hd
  | cons mail rest ih =>
      obtain ⟨logo, hcourse, -⟩ := exists_logoCourse_sendEmail people d mail m
      dsimp only
      rw [List.map_cons, Dispatcher.afterAll, run_seq, exchanges_seq, lookups_append,
        ← List.append_assoc, Dispatcher.after, run_map, exchanges_map]
      exact ih (hcourse.isLast hd) _

/-- Whatever mails were sent before, the logo that is kept, if any, is that of the last load from
its address.  The next mail shows a logo from the address in its own settings, or none.  A load that
fails leaves what is kept as it is, and only an address that holds no content and is not the one
that is kept is looked up. -/
theorem logo_of_sends (earlier : List Mail) (mail : Mail) (m : σ) :
    let sends := Dispatcher.afterAll {} (earlier.map .email)
    let before := sends.run people m
    let history := lookups (sends.exchanges people m)
    let sending := before.1.sendEmail mail
    let after := (sending.run people before.2).1.2
    let exchanges := sending.exchanges people before.2
    let source? := mail.logoSource? (people .emailSettings before.2).1
    before.1.logo.IsLast history ∧
      after.logo.IsLast (history ++ lookups exchanges) ∧
      ∃ logo, ShowLogo mail logo (transmissions exchanges) ∧
        (∀ image, logo = some image → ∃ source, source? = some source ∧
          after.logo = some (source, image) ∧
          lastLogo? source (history ++ lookups exchanges) = some image) ∧
        (∀ lookup ∈ lookups exchanges, replyLogo? lookup.2 = none →
          logo = none ∧ after.logo = before.1.logo) ∧
        ∀ lookup ∈ lookups exchanges, source? = some lookup.1 ∧
          Text.mediaOfUri? lookup.1 = none ∧
          ∀ image, before.1.logo ≠ some (lookup.1, image) := by
  intro sends before history sending after exchanges source?
  have hbefore : before.1.logo.IsLast history := by
    have hfresh : LogoCache.IsLast ({} : Dispatcher).logo [] := nofun
    exact isLast_afterAll people hfresh earlier m
  obtain ⟨logo, hcourse, hshow⟩ := exists_logoCourse_sendEmail people before.1 mail before.2
  have hafter : after.logo.IsLast (history ++ lookups exchanges) := hcourse.isLast hbefore
  refine ⟨hbefore, hafter, logo, hshow, ?_, ?_, ?_⟩
  · intro image hlogo
    obtain ⟨source, hsource, hkept⟩ := hcourse.kept_of_shown hlogo
    exact ⟨source, hsource, hkept, hafter source image hkept⟩
  · intro lookup hlookup hreply
    exact hcourse.of_not_loaded hlookup hreply
  · intro lookup hlookup
    exact hcourse.of_mem_lookups hlookup

end Sends

end Alerting.Delivery
