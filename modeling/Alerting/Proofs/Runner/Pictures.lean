import Alerting.Proofs.Delivery.Pictures
import Alerting.Proofs.Message.Parts
import Alerting.Proofs.Runner.Preview
import Alerting.Proofs.Text.Search
/-!
# The pictures of a run

Where the body of a mail refers to the chart, and its frame to the logo, the letter that goes out
holds that picture once; and what could not be had is neither referred to nor enclosed.
-/

namespace Alerting

open Delivery Email Message Rule

namespace Email

/-! ## What is enclosed -/

def contentsOf (pictures : List Picture) (contentId : String) : List (List UInt8) :=
  (pictures.filter (·.contentId = contentId)).map (·.bytes)

/-- Whether the pictures of a letter are those that it refers to: its body by the token for the
chart, of which these pictures were taken, and its frame by the logo that was found. -/
structure Illustrates (pictures : List Picture) (tokens : Tokens) (taken : List (List UInt8))
    (branding : Branding) (logo : Option InlineImage) : Prop where
  nodup_contentIds : (pictures.map (·.contentId)).Nodup
  chart_iff : tokens.get? "CHART_IMG" = some chartHtml ↔
    (contentsOf pictures chartContentId).length = 1
  chart_contents : contentsOf pictures chartContentId = taken
  chart_of_nil : taken = [] → tokens.get? "CHART_IMG" = some "" ∨
    tokens.get? "CHART_IMG" = some (missing "chart")
  logo_iff : Text.mentions ("cid:" ++ logoContentId).toList branding.logoHtml.toList = true ↔
    (contentsOf pictures logoContentId).length = 1
  logo_contents : contentsOf pictures logoContentId = logo.toList.map (·.bytes)
  logo_of_none : logo = none → branding.logoHtml = ""

theorem contentsOf_eq (pictures : List Picture) (contentId : String) :
    contentsOf pictures contentId =
      ((pictures.map fun p => (p.contentId, p.bytes)).filter (·.1 = contentId)).map (·.2) := by
  rw [contentsOf, List.filter_map, List.map_map]
  rfl

/-- The logo in a frame refers to the enclosed one, if there is one. -/
theorem mentions_logoHtml (s : EmailSettings) (hasLogo : Bool) :
    Text.mentions ("cid:" ++ logoContentId).toList (s.branding hasLogo).logoHtml.toList =
      hasLogo := by
  cases hasLogo with
  | false =>
      change Text.mentions ("cid:" ++ logoContentId).toList "".toList = false
      decide
  | true =>
      have hescape : Text.escapeHtml ("cid:" ++ logoContentId) = "cid:" ++ logoContentId := by
        decide
      have hhtml : (s.branding true).logoHtml = "<img src=\"" ++ ("cid:" ++ logoContentId) ++
          ("\" alt=\"" ++ (s.branding true).nameHtml ++
            "\" class=\"brand-logo\" height=\"32\">") := by
        change
          "<img src=\"" ++ Text.escapeHtml ("cid:" ++ logoContentId) ++ "\" alt=\"" ++ _ ++ _ = _
        simp only [hescape, String.append_assoc]
      rw [hhtml]
      exact Text.mentions_append ..

theorem map_filter_map_prodMk {α : Type} (l : List α) (id contentId : String) :
    ((l.map (id, ·)).filter (·.1 = contentId)).map (·.2) = if id = contentId then l else [] := by
  rw [List.filter_map, List.map_map]
  by_cases h : id = contentId <;> simp [h, Function.comp_def]

/-- The pictures of a letter are its chart, if one was taken, and its logo, if there is one. -/
theorem illustrates_of_map {pictures : List Picture} {tokens : Tokens} {taken : List (List UInt8)}
    {chart : String × Option InlineImage} {logo : Option InlineImage} (s : EmailSettings)
    (hchart : ShowsChart taken chart) (htokens : tokens.get? "CHART_IMG" = some chart.1)
    (hlogo : ∀ image ∈ logo, image.contentId = logoContentId)
    (hpictures : pictures.map (fun p => (p.contentId, p.bytes)) =
      (chart.2.toList ++ logo.toList).map fun image => (image.contentId, image.bytes)) :
    Illustrates pictures tokens taken (s.branding logo.isSome) logo := by
  have hpairs : pictures.map (fun p => (p.contentId, p.bytes)) =
      taken.map (chartContentId, ·) ++ (logo.toList.map (·.bytes)).map (logoContentId, ·) := by
    rw [hpictures, List.map_append, hchart.images_eq, List.map_map, List.map_map]
    congr 1
    cases logo with
    | none => rfl
    | some image => simp [hlogo image rfl]
  have hids : pictures.map (·.contentId) =
      taken.map (fun _ => chartContentId) ++ logo.toList.map fun _ => logoContentId := by
    have h := congrArg (List.map Prod.fst) hpairs
    simpa [Function.comp_def] using h
  have hchartContents : contentsOf pictures chartContentId = taken := by
    rw [contentsOf_eq, hpairs, List.filter_append, List.map_append, map_filter_map_prodMk,
      map_filter_map_prodMk, if_pos rfl, if_neg (by decide), List.append_nil]
  have hlogoContents : contentsOf pictures logoContentId = logo.toList.map (·.bytes) := by
    rw [contentsOf_eq, hpairs, List.filter_append, List.map_append, map_filter_map_prodMk,
      map_filter_map_prodMk, if_neg (by decide), if_pos rfl, List.nil_append]
  refine ⟨?_, ?_, hchartContents, ?_, ?_, hlogoContents, ?_⟩
  · rw [hids]
    have hne : chartContentId ≠ logoContentId := by decide
    match taken, hchart.length_le with
    | [], _ => cases logo <;> simp
    | [_], _ => cases logo <;> simp [hne]
  · rw [hchartContents, htokens, Option.some_inj, hchart.eq_chartHtml_iff]
  · rintro rfl
    rw [htokens, Option.some_inj, Option.some_inj]
    exact hchart.of_nil
  · rw [hlogoContents, mentions_logoHtml]
    cases logo <;> simp
  · rintro rfl
    rfl

end Email

/-! ## Actions -/

namespace Runner

theorem content_of_handOver {rule : StoredRule} {m : Message} {action : Action} {mail : Mail}
    (h : handOver rule m action = .sendEmail mail) :
    mail.html = m.html ∧ mail.images = m.images := by
  cases action with
  | email recipients subject =>
      rw [← Need.sendEmail.inj h]
      exact ⟨rfl, rfl⟩
  | sms recipients text =>
      rw [handOver] at h
      cases h

/-- The letters that go out for an action of a rule hold exactly the pictures that they refer to:
the chart that was taken for the message, and the logo that was found for the mail. -/
theorem illustrates_of_action {σ τ : Type} (supplier : (m : Material) → τ → m.Reply × τ)
    (people : (n : Delivery.Need) → σ → n.Reply × σ) (rule : StoredRule) (config : Config)
    (evaluation : Evaluation) (camera : Option Shot) (t : τ) (action : Action)
    (orders : List Order) (s : σ) :
    let making := Message.make config evaluation camera
    let m := (making.run supplier t).1
    let before := (({} : Dispatcher).afterAll orders).run people s
    ∀ mail, handOver rule m action = .sendEmail mail → ∀ server letter,
      (server, letter) ∈ transmissions ((before.1.sendEmail mail).exchanges people before.2) →
        ∃ settings, (people .emailSettings before.2).1 = .ok (some settings) ∧
          let found := (logoFor before.1.logo settings).run people
            (people .emailSettings before.2).2
          let branding := settings.branding found.1.1.isSome
          letter.html = branding.wrap (people .year found.2).1 m.html ∧
            Illustrates letter.pictures m.tokens (captures (making.exchanges supplier t)) branding
              found.1.1 := by
  intro making m before mail haction server letter hletter
  obtain ⟨hhtml, himages⟩ := content_of_handOver haction
  obtain ⟨table, chart, hm, hchart⟩ := exists_parts supplier config evaluation camera t
  obtain ⟨settings, hsettings, hsent⟩ := mem_transmissions_sendEmail people hletter
  obtain ⟨hframed, hpictures⟩ := mem_transmissions_sendFramed people hsent
  have hbefore : (({} : Dispatcher).afterAll orders).Ensures (fun _ _ => True) (·.IsSound) :=
    Dispatcher.ensures_afterAll (by rintro _ ⟨⟩) orders
  have hlogo : (logoFor before.1.logo settings).Ensures (fun _ _ => True) _ :=
    ensures_logoFor (hbefore.run (fun _ _ => trivial) s) settings
  let found := (logoFor before.1.logo settings).run people (people .emailSettings before.2).2
  have hfound : ∀ image ∈ found.1.1, image.contentId = logoContentId :=
    (hlogo.run (fun _ _ => trivial) _).1
  have htokens : m.tokens.get? "CHART_IMG" = some chart.1 := by
    unfold m
    rw [hm]
    exact Dict.get?_insert_self ..
  have hshown : m.images = chart.2.toList := congrArg Message.images hm
  refine ⟨settings, hsettings, hframed.trans (by rw [hhtml]), ?_⟩
  refine illustrates_of_map settings hchart htokens hfound ?_
  rw [hpictures, himages, hshown]

def widgetConfig : Config where
  actions := [.email ["ann@mail.example"] "Chart"]
  render := { mode := .chart, widget := some { widgetId := "w" } }
  template := some (Template.slot "CHART_IMG")

def smallCamera : (m : Material) → Unit → m.Reply × Unit
  | .query _, t => (.error default, t)
  | .capture .., t => (.ok [1, 2], t)

def brandedOffice : (n : Delivery.Need) → Unit → n.Reply × Unit
  | .emailSettings, s =>
    (.ok (some {
      host := "mail.example"
      fromAddress := "ops@mail.example"
      logo := some "data:image/png;base64,aGVsbG8="
      baseTemplate := some (Template.slot "logo" ++ Template.slot "content") }), s)
  | .smsSettings, s => (.ok none, s)
  | .year, s => (2024, s)
  | .fetch _, s => (.error "closed", s)
  | .transmit .., s => (.ok (), s)

theorem illustrates_of_action_widgetConfig :
    let making := Message.make widgetConfig default (some default)
    let m := (making.run smallCamera ()).1
    captures (making.exchanges smallCamera ()) = [[1, 2]] ∧
      ∃ mail, handOver default m (.email ["ann@mail.example"] "Chart") = .sendEmail mail ∧
        ∃ server letter, (server, letter) ∈
            transmissions ((({} : Dispatcher).sendEmail mail).exchanges brandedOffice ()) ∧
          m.tokens.get? "CHART_IMG" = some chartHtml ∧
          contentsOf letter.pictures chartContentId = [[1, 2]] := by
  intro making m
  have htaken : captures (making.exchanges smallCamera ()) = [[1, 2]] := by decide +kernel
  let template := if Text.isBlankText "Chart" then (default : StoredRule).name else "Chart"
  let mail : Mail := ⟨m.subject template, ["ann@mail.example"], m.html, m.images⟩
  have hmail : handOver default m (.email ["ann@mail.example"] "Chart") = .sendEmail mail := rfl
  have hsent : (transmissions ((({} : Dispatcher).sendEmail mail).exchanges
      brandedOffice ())).length = 1 := by
    decide +kernel
  obtain ⟨⟨server, letter⟩, hletter⟩ := List.length_eq_one_iff.mp hsent
  have hmem : (server, letter) ∈
      transmissions ((({} : Dispatcher).sendEmail mail).exchanges brandedOffice ()) :=
    hletter ▸ List.mem_singleton_self _
  obtain ⟨_, -, -, hpictures⟩ := illustrates_of_action smallCamera brandedOffice default
    widgetConfig default (some default) () (.email ["ann@mail.example"] "Chart") [] () mail hmail
    server letter hmem
  have hchart : contentsOf letter.pictures chartContentId = [[1, 2]] :=
    hpictures.chart_contents.trans htaken
  exact ⟨htaken, mail, hmail, server, letter, hmem,
    hpictures.chart_iff.mpr (by rw [hchart]; rfl), hchart⟩

end Runner

end Alerting
