import Alerting.Text.Base64
import Alerting.Text.Utf8
/-!
# Texts and bytes, there and back

What is encoded is decoded to what it was.  In base 64 no other text can be decoded.
-/

namespace Alerting.Text

/-! ## UTF-8 -/

namespace Utf8

theorem toList_loop_eq (bytes : ByteArray) (i : Nat) (l : List UInt8) :
    ByteArray.toList.loop bytes i l = l.reverse ++ bytes.data.toList.drop i := by
  induction i, l using ByteArray.toList.loop.induct bytes with
  | case1 i l hlt ih =>
      have hi : i < bytes.data.toList.length := hlt
      have hget : bytes.get! i = bytes.data.toList[i] := by
        rw [ByteArray.get!, Array.getElem_toList]
        exact getElem!_pos bytes.data i hlt
      rw [ByteArray.toList.loop, if_pos hlt, ih, hget, List.drop_eq_getElem_cons hi,
        List.reverse_cons, List.append_assoc, List.singleton_append]
  | case2 i l hge =>
      have hi : bytes.data.toList.length ≤ i := Nat.le_of_not_lt hge
      rw [ByteArray.toList.loop, if_neg hge, List.drop_eq_nil_of_le hi, List.append_nil]

theorem encode_eq (s : String) : encode s = s.toByteArray.data.toList := by
  rw [encode, ByteArray.toList, toList_loop_eq]
  rfl

theorem encode_append (s t : String) : encode (s ++ t) = encode s ++ encode t := by
  rw [encode_eq, encode_eq, encode_eq, String.toByteArray_append, ByteArray.data_append,
    Array.toList_append]

theorem encode_ofList (cs : List Char) :
    encode (String.ofList cs) = cs.flatMap String.utf8EncodeChar := by
  rw [encode_eq, String.toByteArray_ofList, List.utf8Encode, List.data_toByteArray]

theorem decode_encode (s : String) : decode (encode s) = .ok s := by
  have hbytes : (⟨(encode s).toArray⟩ : ByteArray) = s.toByteArray := by
    rw [encode_eq]
  have hdecoded : String.fromUTF8? s.toByteArray = some s := dif_pos s.isValidUTF8
  unfold decode
  rw [hbytes, hdecoded]

end Utf8

namespace Base64

/-! ## Letters of base 64 -/

theorem value?_letter {n : Nat} (h : n < 64) : value? (letter n) = some n := by
  have hall : ∀ m < 64, value? (letter m) = some m := by decide
  exact hall n h

theorem letter_ne_pad {n : Nat} (h : n < 64) : letter n ≠ '=' := by
  have hall : ∀ m < 64, letter m ≠ '=' := by decide
  exact hall n h

theorem toNat_of_between {a b c : Char} (h : (a ≤ c && c ≤ b) = true) :
    a.toNat ≤ c.toNat ∧ c.toNat ≤ b.toNat := by
  rw [Bool.and_eq_true, decide_eq_true_iff, decide_eq_true_iff] at h
  exact h

theorem ofNat_add_sub {c : Char} {low : Nat} (h : low ≤ c.toNat) :
    Char.ofNat (low + (c.toNat - low)) = c := by
  rw [Nat.add_sub_cancel' h, Char.ofNat_toNat]

theorem of_value?_eq_some {c : Char} {n : Nat} (h : value? c = some n) :
    n < 64 ∧ letter n = c := by
  unfold value? at h
  split at h
  · next hc =>
    have hc : 65 ≤ c.toNat ∧ c.toNat ≤ 90 := toNat_of_between hc
    obtain rfl := Option.some.inj h
    refine ⟨by omega, ?_⟩
    rw [letter, if_pos (by omega), ofNat_add_sub hc.1]
  split at h
  · next hc =>
    have hc : 97 ≤ c.toNat ∧ c.toNat ≤ 122 := toNat_of_between hc
    obtain rfl := Option.some.inj h
    refine ⟨by omega, ?_⟩
    rw [letter, if_neg (by omega), if_pos (by omega), Nat.add_sub_cancel, ofNat_add_sub hc.1]
  split at h
  · next hc =>
    have hc : 48 ≤ c.toNat ∧ c.toNat ≤ 57 := toNat_of_between hc
    obtain rfl := Option.some.inj h
    refine ⟨by omega, ?_⟩
    rw [letter, if_neg (by omega), if_neg (by omega), if_pos (by omega), Nat.add_sub_cancel,
      ofNat_add_sub hc.1]
  split at h
  · next hc =>
    obtain rfl := Option.some.inj h
    exact ⟨by decide, hc.symm⟩
  split at h
  · next hc =>
    obtain rfl := Option.some.inj h
    exact ⟨by decide, hc.symm⟩
  · cases h

/-! ## Groups of letters -/

theorem ofNat_eq {a : UInt8} {n : Nat} (h : n = a.toNat) : UInt8.ofNat n = a := by
  rw [h, UInt8.ofNat_toNat]

theorem decode_encode (bytes : List UInt8) : decode (encode bytes) = some bytes := by
  induction bytes using encode.induct with
  | case1 => rfl
  | case2 a =>
      have ha := a.toNat_lt
      rw [encode, decode, value?_letter (by omega), value?_letter (by omega)]
      refine (if_pos (by omega)).trans ?_
      rw [ofNat_eq (a := a) (by omega)]
  | case3 a b =>
      have ha := a.toNat_lt
      have hb := b.toNat_lt
      rw [encode, decode, value?_letter (by omega), value?_letter (by omega),
        value?_letter (by omega)]
      · refine (if_pos (by omega)).trans ?_
        rw [ofNat_eq (a := a) (by omega), ofNat_eq (a := b) (by omega)]
      · exact letter_ne_pad (by omega)
  | case4 a b c rest ih =>
      have ha := a.toNat_lt
      have hb := b.toNat_lt
      have hc := c.toNat_lt
      have hlast : letter (c.toNat % 64) ≠ '=' := letter_ne_pad (by omega)
      rw [encode, decode, value?_letter (by omega), value?_letter (by omega),
        value?_letter (by omega), value?_letter (by omega), ih]
      · change some (_ :: _ :: _ :: rest) = _
        rw [ofNat_eq (a := a) (by omega), ofNat_eq (a := b) (by omega),
          ofNat_eq (a := c) (by omega)]
      · exact fun _ hpad => absurd hpad hlast
      · exact fun hpad => absurd hpad hlast

theorem toNat_ofNat {n : Nat} (h : n < 256) : (UInt8.ofNat n).toNat = n :=
  UInt8.toNat_ofNat_of_lt' h

/-- Padding has to be there, and what it leaves over has to be zero, so no two texts are decoded to
the same bytes. -/
theorem eq_encode_of_decode {text : List Char} {bytes : List UInt8}
    (h : decode text = some bytes) : text = encode bytes := by
  induction text using decode.induct generalizing bytes with
  | case1 =>
      cases h
      rfl
  | case2 a b =>
      rw [decode] at h
      obtain ⟨x, hx, hgroup⟩ := Option.bind_eq_some_iff.mp h
      obtain ⟨y, hy, hbytes⟩ := Option.bind_eq_some_iff.mp hgroup
      obtain ⟨hzero, hbytes⟩ := Option.ite_none_right_eq_some.mp hbytes
      obtain ⟨hxlt, rfl⟩ := of_value?_eq_some hx
      obtain ⟨hylt, rfl⟩ := of_value?_eq_some hy
      obtain rfl := Option.some.inj hbytes
      have hfirst : x = (x * 4 + y / 16) / 4 := by omega
      have hsecond : y = (x * 4 + y / 16) % 4 * 16 := by omega
      rw [encode, toNat_ofNat (by omega), ← hfirst, ← hsecond]
  | case3 a b c hc =>
      rw [decode] at h
      · obtain ⟨x, hx, hgroup⟩ := Option.bind_eq_some_iff.mp h
        obtain ⟨y, hy, hgroup⟩ := Option.bind_eq_some_iff.mp hgroup
        obtain ⟨z, hz, hbytes⟩ := Option.bind_eq_some_iff.mp hgroup
        obtain ⟨hzero, hbytes⟩ := Option.ite_none_right_eq_some.mp hbytes
        obtain ⟨hxlt, rfl⟩ := of_value?_eq_some hx
        obtain ⟨hylt, rfl⟩ := of_value?_eq_some hy
        obtain ⟨hzlt, rfl⟩ := of_value?_eq_some hz
        obtain rfl := Option.some.inj hbytes
        have hfirst : x = (x * 4 + y / 16) / 4 := by omega
        have hsecond : y = (x * 4 + y / 16) % 4 * 16 + (y % 16 * 16 + z / 4) / 16 := by omega
        have hthird : z = (y % 16 * 16 + z / 4) % 16 * 4 := by omega
        rw [encode, toNat_ofNat (by omega), toNat_ofNat (by omega), ← hfirst, ← hsecond, ← hthird]
      · exact hc
  | case4 a b c d rest hpads hpad ih =>
      rw [decode] at h
      · obtain ⟨x, hx, hgroup⟩ := Option.bind_eq_some_iff.mp h
        obtain ⟨y, hy, hgroup⟩ := Option.bind_eq_some_iff.mp hgroup
        obtain ⟨z, hz, hgroup⟩ := Option.bind_eq_some_iff.mp hgroup
        obtain ⟨w, hw, hgroup⟩ := Option.bind_eq_some_iff.mp hgroup
        obtain ⟨others, hrest, hbytes⟩ := Option.bind_eq_some_iff.mp hgroup
        obtain ⟨hxlt, rfl⟩ := of_value?_eq_some hx
        obtain ⟨hylt, rfl⟩ := of_value?_eq_some hy
        obtain ⟨hzlt, rfl⟩ := of_value?_eq_some hz
        obtain ⟨hwlt, rfl⟩ := of_value?_eq_some hw
        obtain rfl := Option.some.inj hbytes
        have hfirst : x = (x * 4 + y / 16) / 4 := by omega
        have hsecond : y = (x * 4 + y / 16) % 4 * 16 + (y % 16 * 16 + z / 4) / 16 := by omega
        have hthird : z = (y % 16 * 16 + z / 4) % 16 * 4 + (z % 4 * 64 + w) / 64 := by omega
        have hfourth : w = (z % 4 * 64 + w) % 64 := by omega
        rw [encode, toNat_ofNat (by omega), toNat_ofNat (by omega), toNat_ofNat (by omega),
          ← hfirst, ← hsecond, ← hthird, ← hfourth, ih hrest]
      · exact hpads
      · exact hpad
  | case5 text hnil hpads hpad hgroup =>
      rw [decode] at h
      · cases h
      · exact hnil
      · exact hpads
      · exact hpad
      · exact hgroup

theorem decode_eq_some_iff {text : List Char} {bytes : List UInt8} :
    decode text = some bytes ↔ text = encode bytes :=
  ⟨eq_encode_of_decode, fun h => h ▸ decode_encode bytes⟩

end Base64

end Alerting.Text
