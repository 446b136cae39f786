import Alerting.Secret.Gcm
/-!
# Unlocking what was locked

Masking twice with one key and one nonce gives a text back, as the key stream is long enough for it.
That rests on the lengths of blocks and keys only.
-/

namespace Alerting.Secret

/-! ## Lengths in the block cipher -/

namespace Aes

theorem length_add {a b : List UInt8} {n : Nat} (ha : a.length = n) (hb : b.length = n) :
    (add a b).length = n := by
  rw [add, List.length_zipWith, ha, hb, Nat.min_self]

theorem add_add {a b : List UInt8} (h : a.length ≤ b.length) : add (add a b) b = a := by
  induction a generalizing b with
  | nil => rfl
  | cons x a ih =>
      cases b with
      | nil => exact absurd h (Nat.not_succ_le_zero _)
      | cons y b =>
          have hxy : x ^^^ y ^^^ y = x := by rw [UInt8.xor_assoc, UInt8.xor_self, UInt8.xor_zero]
          change (x ^^^ y ^^^ y) :: add (add a b) b = x :: a
          rw [hxy, ih (Nat.le_of_succ_le_succ h)]

theorem length_shiftRows (block : List UInt8) : (shiftRows block).length = 16 := by
  rw [shiftRows, List.length_map, List.length_range]

theorem length_mixColumns (block : List UInt8) :
    (mixColumns block).length = 4 * (block.length / 4) := by
  induction block using mixColumns.induct with
  | case1 a b c d rest ih =>
      simp only [mixColumns, List.length_cons, ih]
      omega
  | case2 block hshort =>
      rw [mixColumns]
      · match block, hshort with
        | [], _ => rfl
        | [_], _ => simp
        | [_, _], _ => simp
        | [_, _, _], _ => simp
        | a :: b :: c :: d :: rest, hshort => exact (hshort a b c d rest rfl).elim
      · exact hshort

theorem length_round (block : List UInt8) {key : List UInt8} (hkey : key.length = 16) :
    (round block key).length = 16 := by
  refine length_add ?_ hkey
  rw [length_mixColumns, length_shiftRows]

theorem length_rounds {keys : List (List UInt8)} (hkeys : ∀ key ∈ keys, key.length = 16)
    {block : List UInt8} (hblock : block.length = 16) : (rounds keys block).length = 16 := by
  induction keys generalizing block with
  | nil => exact hblock
  | cons key keys ih =>
      rw [List.forall_mem_cons] at hkeys
      cases keys with
      | nil => exact length_add (length_shiftRows _) hkeys.1
      | cons next others => exact ih hkeys.2 (length_round block hkeys.1)

theorem length_encipher {keys : List (List UInt8)} (hkeys : ∀ key ∈ keys, key.length = 16)
    {block : List UInt8} (hblock : block.length = 16) : (encipher keys block).length = 16 := by
  cases keys with
  | nil => exact hblock
  | cons first rest =>
      rw [List.forall_mem_cons] at hkeys
      exact length_rounds hkeys.2 (length_add hblock hkeys.1)

theorem length_of_mem_pieces {α : Type} {length count : Nat} {l : List α}
    (h : length * count ≤ l.length) : ∀ piece ∈ pieces length count l, piece.length = length := by
  induction count generalizing l with
  | zero => exact fun piece hpiece => absurd hpiece List.not_mem_nil
  | succ count ih =>
      rw [Nat.mul_succ] at h
      rw [pieces, List.forall_mem_cons]
      refine ⟨?_, ih ?_⟩
      · rw [List.length_take]
        omega
      · rw [List.length_drop]
        omega

theorem length_pieces {α : Type} (length count : Nat) (l : List α) :
    (pieces length count l).length = count := by
  induction count generalizing l with
  | zero => rfl
  | succ count ih => rw [pieces, List.length_cons, ih]

theorem length_addConstant (constant : UInt8) (word : List UInt8) :
    (addConstant constant word).length = word.length := by
  cases word <;> rfl

theorem length_extend {more : Nat} {constant : UInt8} {words : List (List UInt8)}
    (hwords : ∀ word ∈ words, word.length = 4) (height : 8 ≤ words.length) :
    (∀ word ∈ extend more constant words, word.length = 4) ∧
      (extend more constant words).length = more + words.length := by
  induction more generalizing constant words with
  | zero => exact ⟨hwords, (Nat.zero_add _).symm⟩
  | succ more ih =>
      have hbefore : (words.headD []).length = 4 := by
        cases words with
        | nil => exact absurd height (by decide)
        | cons word words => exact hwords word List.mem_cons_self
      have hseventh : (words.getD 7 []).length = 4 := by
        have height : 7 < words.length := height
        rw [List.getD_eq_getElem?_getD, List.getElem?_eq_getElem height]
        exact hwords _ (List.getElem_mem height)
      rw [extend]
      refine (ih ?_ ?_).imp_right fun hlength => ?_
      · rw [List.forall_mem_cons]
        refine ⟨length_add hseventh ?_, hwords⟩
        split
        · rw [length_addConstant, List.length_map, List.length_append, List.length_drop,
            List.length_take, hbefore]
          rfl
        · split
          · rw [List.length_map, hbefore]
          · exact hbefore
      · exact Nat.le_succ_of_le height
      · rw [hlength, List.length_cons]
        omega

theorem length_flatten {l : List (List UInt8)} {n : Nat} (h : ∀ piece ∈ l, piece.length = n) :
    l.flatten.length = l.length * n := by
  rw [List.length_flatten, List.map_congr_left h, List.map_const', List.sum_replicate_nat]

theorem length_of_mem_roundKeys {key : List UInt8} (hkey : key.length = 32) :
    ∀ roundKey ∈ roundKeys key, roundKey.length = 16 := by
  have hwords : ∀ word ∈ (pieces 4 8 key).reverse, word.length = 4 := by
    intro word hword
    rw [List.mem_reverse] at hword
    exact length_of_mem_pieces (Nat.le_of_eq hkey.symm) word hword
  have hcount : (pieces 4 8 key).reverse.length = 8 := by
    rw [List.length_reverse, length_pieces]
  obtain ⟨hall, hlength⟩ : (∀ word ∈ extend 52 1 (pieces 4 8 key).reverse, word.length = 4) ∧
      (extend 52 1 (pieces 4 8 key).reverse).length = 52 + (pieces 4 8 key).reverse.length :=
    length_extend hwords (Nat.le_of_eq hcount.symm)
  have hflat := length_flatten fun word hword => hall word (List.mem_reverse.mp hword)
  rw [List.length_reverse, hlength, hcount] at hflat
  exact length_of_mem_pieces (Nat.le_of_eq hflat.symm)

end Aes

/-! ## Locking -/

namespace Gcm

theorem length_toBytes (length n : Nat) : (toBytes length n).length = length := by
  induction length generalizing n with
  | zero => rfl
  | succ length ih => rw [toBytes, List.length_append, ih, List.length_singleton]

section Masking

variable {keys : List (List UInt8)} {nonce : List UInt8}
  (hkeys : ∀ key ∈ keys, key.length = 16) (hnonce : nonce.length = nonceLength)

include hkeys hnonce

theorem length_encipher_counterBlock (n : Nat) :
    (Aes.encipher keys (counterBlock nonce n)).length = 16 := by
  refine Aes.length_encipher hkeys ?_
  rw [counterBlock, List.length_append, hnonce, length_toBytes]
  rfl

theorem le_length_keyStream (length : Nat) : length ≤ (keyStream keys nonce length).length := by
  have hblocks : ∀ block ∈ (List.range ((length + 15) / 16)).map fun i =>
      Aes.encipher keys (counterBlock nonce (i + 2)), block.length = 16 := by
    rw [List.forall_mem_map]
    exact fun i _ => length_encipher_counterBlock hkeys hnonce (i + 2)
  rw [keyStream, List.flatMap_def, Aes.length_flatten hblocks, List.length_map, List.length_range]
  omega

theorem length_mask (text : List UInt8) : (mask keys nonce text).length = text.length := by
  rw [mask, Aes.add, List.length_zipWith]
  exact Nat.min_eq_left (le_length_keyStream hkeys hnonce text.length)

theorem mask_mask (text : List UInt8) : mask keys nonce (mask keys nonce text) = text := by
  rw [mask, length_mask hkeys hnonce, mask]
  exact Aes.add_add (le_length_keyStream hkeys hnonce text.length)

theorem length_tag (masked : List UInt8) : (tag keys nonce masked).length = tagLength :=
  Aes.length_add (length_toBytes _ _) (length_encipher_counterBlock hkeys hnonce 1)

end Masking

section Locking

variable {key nonce : List UInt8} (hkey : key.length = 32) (hnonce : nonce.length = nonceLength)

include hkey hnonce

theorem length_lock (text : List UInt8) :
    (lock key nonce text).length = text.length + tagLength := by
  have hkeys := Aes.length_of_mem_roundKeys hkey
  rw [lock, List.length_append, length_mask hkeys hnonce, length_tag hkeys hnonce]

theorem unlock?_lock (text : List UInt8) : unlock? key nonce (lock key nonce text) = some text := by
  have hkeys := Aes.length_of_mem_roundKeys hkey
  have hmasked := length_mask hkeys hnonce text
  have hlength := length_lock hkey hnonce text
  unfold unlock?
  rw [hlength, Nat.add_sub_cancel]
  dsimp only
  rw [lock, ← hmasked, List.take_left, List.drop_left, if_pos rfl, mask_mask hkeys hnonce]

end Locking

end Gcm

end Alerting.Secret
