import Alerting.Proofs.Text.Base64
import Alerting.Proofs.Text.Search
import Alerting.Text.DataUri
/-!
# Data addresses, there and back

Bytes with a media type are written as a data address, and it is read as what was written.  Nothing
else is read than addresses of this form, up to white space around the address and its payload.
-/

namespace Alerting.Text

/-! ## Parts of texts -/

theorem dropPrefixChars_eq_some_iff {front cs rest : List Char} :
    dropPrefixChars front cs = some rest ↔ cs = front ++ rest := by
  induction front generalizing cs with
  | nil => rw [dropPrefixChars, Option.some.injEq, List.nil_append]
  | cons p front ih =>
      cases cs with
      | nil => exact iff_of_false nofun nofun
      | cons c cs =>
          rw [dropPrefixChars, Option.ite_none_right_eq_some, ih, List.cons_append,
            List.cons.injEq, eq_comm (a := p)]

theorem dropSuffixChars_eq_some_iff {back cs rest : List Char} :
    dropSuffixChars back cs = some rest ↔ cs = rest ++ back := by
  unfold dropSuffixChars
  rw [Option.map_eq_some_iff]
  constructor
  · rintro ⟨tail, htail, rfl⟩
    rw [dropPrefixChars_eq_some_iff] at htail
    rw [← List.reverse_inj, htail, List.reverse_append, List.reverse_reverse]
  · rintro rfl
    refine ⟨rest.reverse, ?_, List.reverse_reverse rest⟩
    rw [dropPrefixChars_eq_some_iff, List.reverse_append]

theorem span_comma {front : List Char} (hfront : ',' ∉ front) (rest : List Char) :
    (front ++ ',' :: rest).takeWhile (· ≠ ',') = front ∧
      ((front ++ ',' :: rest).dropWhile (· ≠ ',')).drop 1 = rest := by
  have hall : ∀ c ∈ front, decide (c ≠ ',') = true := fun c hc =>
    decide_eq_true fun heq => hfront (heq ▸ hc)
  have hcomma : ∀ c ∈ (',' :: rest).head?, decide (c ≠ ',') = false := by
    rintro _ ⟨⟩
    rfl
  obtain ⟨htake, hdrop⟩ := span_append hall hcomma
  exact ⟨htake, by rw [hdrop]; rfl⟩

theorem append_comma_inj {front front' rest rest' : String}
    (h : front ++ "," ++ rest = front' ++ "," ++ rest') (hfront : ',' ∉ front.toList)
    (hfront' : ',' ∉ front'.toList) : front = front' ∧ rest = rest' := by
  have hchars : front.toList ++ ',' :: rest.toList = front'.toList ++ ',' :: rest'.toList := by
    simpa using congrArg String.toList h
  obtain ⟨htake, hdrop⟩ := span_comma hfront rest.toList
  obtain ⟨htake', hdrop'⟩ := span_comma hfront' rest'.toList
  rw [hchars] at htake hdrop
  exact ⟨String.toList_inj.mp (htake.symm.trans htake'),
    String.toList_inj.mp (hdrop.symm.trans hdrop')⟩

theorem exists_append_comma {s : String} (h : ',' ∈ s.toList) :
    ∃ front rest : String, s = front ++ "," ++ rest ∧ ',' ∉ front.toList := by
  obtain ⟨front, rest, hsplit, hfront⟩ := List.eq_append_cons_of_mem h
  refine ⟨.ofList front, .ofList rest, ?_, by rwa [String.toList_ofList]⟩
  rw [← String.toList_inj, hsplit]
  simp

/-! ## Addresses -/

theorem mediaOfUri?_eq_some_iff_chars {uri : String} {media : Media} :
    mediaOfUri? uri = some media ↔
      ∃ mime payload : List Char,
        trimChars uri.toList = "data:".toList ++ ((mime ++ ";base64".toList) ++ ',' :: payload) ∧
        ',' ∉ mime ∧ Base64.decode (trimChars payload) = some media.bytes ∧
        media.mime = if mime.isEmpty then defaultMime else .ofList mime := by
  unfold mediaOfUri?
  simp only [Option.bind_eq_bind, Option.bind_eq_some_iff, dropPrefixChars_eq_some_iff]
  constructor
  · rintro ⟨rest, huri, h⟩
    split at h
    · cases h
    · next hcomma =>
      have hmem : ',' ∈ rest := by simpa using hcomma
      obtain ⟨front, payload, rfl, hfront⟩ := List.eq_append_cons_of_mem hmem
      obtain ⟨htake, hdrop⟩ := span_comma hfront payload
      rw [htake, hdrop, Option.bind_eq_some_iff] at h
      obtain ⟨mime, hmime, h⟩ := h
      obtain ⟨bytes, hbytes, h⟩ := Option.bind_eq_some_iff.mp h
      obtain rfl := Option.some.inj h
      rw [dropSuffixChars_eq_some_iff] at hmime
      subst hmime
      exact ⟨mime, payload, huri, fun hm => hfront (List.mem_append_left _ hm), hbytes, rfl⟩
  · rintro ⟨mime, payload, huri, hmime, hbytes, htype⟩
    have hfront : ',' ∉ mime ++ ";base64".toList := by
      rw [List.mem_append, not_or]
      exact ⟨hmime, by decide⟩
    obtain ⟨htake, hdrop⟩ := span_comma hfront payload
    refine ⟨_, huri, ?_⟩
    rw [if_neg (by simp), htake, hdrop, dropSuffixChars_eq_some_iff.mpr rfl, hbytes]
    simp only [Option.bind_some, ← htype]
    rfl

/-- What is read is the payload of an address whose media type has no comma. -/
theorem mediaOfUri?_eq_some_iff {uri : String} {media : Media} :
    mediaOfUri? uri = some media ↔
      ∃ mime payload : String, trim uri = "data:" ++ mime ++ ";base64," ++ payload ∧
        ',' ∉ mime.toList ∧ Base64.IsStandard (trim payload).toList media.bytes ∧
        media.mime = if mime = "" then defaultMime else mime := by
  rw [mediaOfUri?_eq_some_iff_chars]
  constructor
  · rintro ⟨mime, payload, huri, hmime, hbytes, htype⟩
    refine ⟨.ofList mime, .ofList payload, ?_, ?_, ?_, ?_⟩
    · rw [← String.toList_inj, trim, String.toList_ofList, huri]
      simp
    · rwa [String.toList_ofList]
    · rwa [trim, String.toList_ofList, String.toList_ofList,
        ← Base64.decode_eq_some_iff_isStandard]
    · rw [htype]
      simp
  · rintro ⟨mime, payload, huri, hmime, hbytes, htype⟩
    refine ⟨mime.toList, payload.toList, ?_, hmime, ?_, ?_⟩
    · have hchars := congrArg String.toList huri
      simpa [trim] using hchars
    · rwa [Base64.decode_eq_some_iff_isStandard, ← String.toList_ofList (l := trimChars _)]
    · rw [htype]
      simp

/-- What is refused lacks the beginning or the comma, or it lacks the marker in front of the comma
or a standard payload behind it. -/
theorem mediaOfUri?_eq_none_iff {uri : String} :
    mediaOfUri? uri = none ↔
      (∀ rest, trim uri ≠ "data:" ++ rest) ∨ ',' ∉ (trim uri).toList ∨
        ∃ front payload, trim uri = front ++ "," ++ payload ∧ ',' ∉ front.toList ∧
          ((∀ mime, front ≠ "data:" ++ mime ++ ";base64") ∨
            ∀ bytes, ¬ Base64.IsStandard (trim payload).toList bytes) := by
  have hmarker : ";base64," = ";base64" ++ "," := rfl
  constructor
  · intro hnone
    by_cases hcomma : ',' ∈ (trim uri).toList
    · obtain ⟨front, payload, hsplit, hfront⟩ := exists_append_comma hcomma
      refine .inr (.inr ⟨front, payload, hsplit, hfront, ?_⟩)
      by_cases hmime : ∃ mime, front = "data:" ++ mime ++ ";base64"
      · obtain ⟨mime, rfl⟩ := hmime
        refine .inr fun bytes hbytes => ?_
        have hnot : ',' ∉ mime.toList := fun hm => hfront (by simp [hm])
        have hread : mediaOfUri? uri = some ⟨if mime = "" then defaultMime else mime, bytes⟩ :=
          mediaOfUri?_eq_some_iff.mpr
            ⟨mime, payload, by rw [hsplit, hmarker, ← String.append_assoc], hnot, hbytes, rfl⟩
        rw [hnone] at hread
        cases hread
      · exact .inl (not_exists.mp hmime)
    · exact .inr (.inl hcomma)
  · intro hflaw
    rw [Option.eq_none_iff_forall_ne_some]
    intro media hmedia
    obtain ⟨mime, payload, huri, hmime, hbytes, -⟩ := mediaOfUri?_eq_some_iff.mp hmedia
    rcases hflaw with hstart | hcomma | ⟨front, rest, hsplit, hfront, hparts⟩
    · exact hstart (mime ++ ";base64," ++ payload) (by rw [huri]; simp only [String.append_assoc])
    · rw [huri] at hcomma
      simp at hcomma
    · rw [huri, hmarker, ← String.append_assoc] at hsplit
      have hnot : ',' ∉ ("data:" ++ mime ++ ";base64").toList := by simpa using hmime
      obtain ⟨rfl, rfl⟩ := append_comma_inj hsplit hnot hfront
      rcases hparts with hother | hnone
      · exact hother mime rfl
      · exact hnone _ hbytes

def Media.toUri (media : Media) : String :=
  "data:" ++ media.mime ++ ";base64," ++ Base64.encodeText media.bytes

theorem isBlank_of_mem_encode {bytes : List UInt8} :
    ∀ c ∈ Base64.encode bytes, isBlank c = false := by
  obtain ⟨digits, pads, htext, hdigits, -⟩ := Base64.isStandard_encode bytes
  have hletters : ∀ d < 64, isBlank (Base64.alphabet.getD d '=') = false := by decide +kernel
  rw [htext, List.forall_mem_append, List.forall_mem_map]
  refine ⟨fun d hd => hletters d (hdigits d hd), fun c hc => ?_⟩
  rw [List.eq_of_mem_replicate hc]
  decide

theorem toList_toUri (media : Media) :
    media.toUri.toList = "data:".toList ++
      ((media.mime.toList ++ ";base64".toList) ++ ',' :: Base64.encode media.bytes) := by
  simp [Media.toUri, Base64.encodeText]

theorem trimChars_toUri (media : Media) {before after : List Char}
    (hbefore : ∀ c ∈ before, isBlank c = true) (hafter : ∀ c ∈ after, isBlank c = true) :
    trimChars (before ++ (media.toUri.toList ++ after)) = media.toUri.toList := by
  refine trimChars_append hbefore hafter ?_ ?_
  · rw [toList_toUri]
    rintro _ ⟨⟩
    decide
  · have hend : ∀ c ∈ ',' :: Base64.encode media.bytes, isBlank c = false :=
      List.forall_mem_cons.mpr ⟨by decide, isBlank_of_mem_encode⟩
    intro c hc
    rw [toList_toUri, ← List.append_assoc, List.getLast?_append, List.getLast?_cons,
      Option.some_or, ← List.getLast?_cons] at hc
    exact hend c (List.mem_of_mem_getLast? hc)

theorem mediaOfUri?_toUri {media : Media} (hmime : ',' ∉ media.mime.toList) {before after : String}
    (hbefore : isBlankText before = true) (hafter : isBlankText after = true) :
    mediaOfUri? (before ++ media.toUri ++ after) =
      some ⟨if media.mime = "" then defaultMime else media.mime, media.bytes⟩ := by
  rw [mediaOfUri?_eq_some_iff_chars]
  refine ⟨media.mime.toList, Base64.encode media.bytes, ?_, hmime, ?_, by simp⟩
  · rw [String.toList_append, String.toList_append, List.append_assoc, trimChars_toUri media
      (List.all_eq_true.mp hbefore) (List.all_eq_true.mp hafter), toList_toUri]
  · rw [trimChars_of_not_blank isBlank_of_mem_encode, Base64.decode_encode]

theorem mediaOfUri?_toUri_of_read {uri : String} {media : Media}
    (h : mediaOfUri? uri = some media) : mediaOfUri? media.toUri = some media := by
  obtain ⟨mime, payload, -, hmime, -, htype⟩ := mediaOfUri?_eq_some_iff.mp h
  -- a type that was read is there, and it has no comma
  have hne : media.mime ≠ "" := by
    rw [htype]
    split
    · decide
    · assumption
  have hcomma : ',' ∉ media.mime.toList := by
    rw [htype]
    split
    · decide
    · exact hmime
  have hempty : isBlankText "" = true := rfl
  have hread := mediaOfUri?_toUri hcomma hempty hempty
  rwa [String.empty_append, String.append_empty, if_neg hne] at hread

/-- The address of bytes has their standard base 64 in it, and with any white space around it is
read as these bytes with their media type, or with the default one if none is given.  What is read
from any text can be written and read again.  A text is refused only if it lacks the beginning, the
comma, the marker before it, or a standard payload behind it. -/
theorem media_of_addresses :
    (∀ bytes, Base64.IsStandard (Base64.encodeText bytes).toList bytes) ∧
      (∀ media : Media, ',' ∉ media.mime.toList → ∀ before after : String,
        isBlankText before = true → isBlankText after = true →
          mediaOfUri? (before ++ media.toUri ++ after) =
            some ⟨if media.mime = "" then defaultMime else media.mime, media.bytes⟩) ∧
      (∀ uri media, mediaOfUri? uri = some media → mediaOfUri? media.toUri = some media) ∧
      ∀ uri, mediaOfUri? uri = none ↔
        (∀ rest, trim uri ≠ "data:" ++ rest) ∨ ',' ∉ (trim uri).toList ∨
          ∃ front payload, trim uri = front ++ "," ++ payload ∧ ',' ∉ front.toList ∧
            ((∀ mime, front ≠ "data:" ++ mime ++ ";base64") ∨
              ∀ bytes, ¬ Base64.IsStandard (trim payload).toList bytes) := by
  refine ⟨fun bytes => ?_, fun media hmime before after => mediaOfUri?_toUri hmime,
    fun uri media => mediaOfUri?_toUri_of_read, fun uri => mediaOfUri?_eq_none_iff⟩
  rw [Base64.encodeText, String.toList_ofList]
  exact Base64.isStandard_encode bytes

theorem media_of_addresses_hello :
    let hello : Media := ⟨"image/png", [104, 101, 108, 108, 111]⟩
    ',' ∉ hello.mime.toList ∧ isBlankText "\n " = true ∧ isBlankText "\u00a0" = true ∧
      mediaOfUri? ("\n " ++ hello.toUri ++ "\u00a0") = some hello ∧
      mediaOfUri? " data:;base64, aGVsbG8=" = some ⟨defaultMime, hello.bytes⟩ ∧
      mediaOfUri? (Media.toUri ⟨defaultMime, hello.bytes⟩) = some ⟨defaultMime, hello.bytes⟩ := by
  intro hello
  have hmime : ',' ∉ hello.mime.toList := by decide
  have hread : mediaOfUri? " data:;base64, aGVsbG8=" = some ⟨defaultMime, hello.bytes⟩ := by rfl
  exact ⟨hmime, by decide, by decide,
    media_of_addresses.2.1 hello hmime "\n " "\u00a0" (by decide) (by decide), hread,
    media_of_addresses.2.2.1 _ _ hread⟩

end Alerting.Text
