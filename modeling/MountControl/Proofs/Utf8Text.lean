import Mathlib.Data.List.Basic
import MountControl.Text.Utf8

namespace MountControl.Utf8

theorem lead_ascii : ∀ k < 128, lead (.ofNat k) = ([some (Char.ofNat k)], none) := by
  decide

theorem lead_two : ∀ k < 32, 2 ≤ k → lead (.ofNat (k + 192)) = ([], some ⟨k, 0x80, 0xBF, 0⟩) := by
  decide

/-- The bounds on the second byte keep out overlong forms and surrogates. -/
theorem lead_three : ∀ k < 16, lead (.ofNat (k + 224)) =
    ([], some ⟨k, if k = 0 then 0xA0 else 0x80, if k = 13 then 0x9F else 0xBF, 1⟩) := by
  decide

/-- Here they keep out overlong forms and what is past the last character. -/
theorem lead_four : ∀ k < 5, lead (.ofNat (k + 240)) =
    ([], some ⟨k, if k = 0 then 0x90 else 0x80, if k = 4 then 0x8F else 0xBF, 2⟩) := by
  decide

section Continuation

variable {value k n : Nat} {low high : UInt8} (rest : Bytes)

theorem toNat_ofNat_continuation (hhigh : k + 128 ≤ high.toNat) :
    (UInt8.ofNat (k + 128)).toNat = k + 128 := by
  have hmax := high.toNat_lt
  rw [UInt8.toNat_ofNat']
  omega

theorem continuation_in_range (hlow : low.toNat ≤ k + 128) (hhigh : k + 128 ≤ high.toNat) :
    low ≤ .ofNat (k + 128) ∧ .ofNat (k + 128) ≤ high := by
  rw [UInt8.le_iff_toNat_le, UInt8.le_iff_toNat_le, toNat_ofNat_continuation hhigh]
  exact ⟨hlow, hhigh⟩

/-- The last byte of a character completes it. -/
theorem piecesFrom_last (hlow : low.toNat ≤ k + 128) (hhigh : k + 128 ≤ high.toNat) :
    piecesFrom (some ⟨value, low, high, 0⟩) (.ofNat (k + 128) :: rest) =
      some (Char.ofNat (value * 64 + k)) :: piecesFrom none rest := by
  have hbits : (UInt8.ofNat (k + 128)).toNat - 0x80 = k := by
    rw [toNat_ofNat_continuation hhigh]
    omega
  rw [piecesFrom, step, if_pos (continuation_in_range hlow hhigh), hbits]
  rfl

/-- Any other byte after the first adds its bits. -/
theorem piecesFrom_inner (hlow : low.toNat ≤ k + 128) (hhigh : k + 128 ≤ high.toNat) :
    piecesFrom (some ⟨value, low, high, n + 1⟩) (.ofNat (k + 128) :: rest) =
      piecesFrom (some ⟨value * 64 + k, 0x80, 0xBF, n⟩) rest := by
  have hbits : (UInt8.ofNat (k + 128)).toNat - 0x80 = k := by
    rw [toNat_ofNat_continuation hhigh]
    omega
  rw [piecesFrom, step, if_pos (continuation_in_range hlow hhigh), hbits]
  rfl

theorem piecesFrom_lead {b : UInt8} {p : Pending} (hlead : lead b = ([], some p)) :
    piecesFrom none (b :: rest) = piecesFrom (some p) rest := by
  rw [piecesFrom, step, hlead]
  rfl

end Continuation

/-- The bytes of a character are read as that character, whatever follows. -/
theorem piecesFrom_utf8EncodeChar (c : Char) (rest : Bytes) :
    piecesFrom none (String.utf8EncodeChar c ++ rest) = some c :: piecesFrom none rest := by
  have hvalid := c.valid
  have hback : Char.ofNat c.val.toNat = c := Char.ofNat_toNat c
  simp only [UInt32.isValidChar, Nat.isValidChar] at hvalid
  unfold String.utf8EncodeChar
  dsimp only
  generalize c.val.toNat = v at hvalid hback ⊢
  split
  · rw [List.singleton_append, piecesFrom, step, lead_ascii v (by omega), hback]
    rfl
  have hlast : v % 64 + 128 ≤ 0xBF := by omega
  split
  · have hlead := lead_two (v / 64 % 32) (by omega) (by omega)
    have hvalue : v / 64 % 32 * 64 + v % 64 = v := by omega
    simp only [List.cons_append, List.nil_append]
    rw [piecesFrom_lead _ hlead, piecesFrom_last _ (Nat.le_add_left _ _) hlast, hvalue, hback]
  -- for longer characters the second byte has a range of its own: it keeps out overlong forms,
  -- surrogates and what is beyond the last character
  split
  · have hlead := lead_three (v / 4096 % 16) (by omega)
    have hlow : (if v / 4096 % 16 = 0 then 0xA0 else 0x80 : UInt8).toNat ≤ v / 64 % 64 + 128 := by
      split
      · change 0xA0 ≤ _
        omega
      · exact Nat.le_add_left _ _
    have hhigh : v / 64 % 64 + 128 ≤ (if v / 4096 % 16 = 13 then 0x9F else 0xBF : UInt8).toNat := by
      split
      · change _ ≤ 0x9F
        omega
      · change _ ≤ 0xBF
        omega
    have hvalue : (v / 4096 % 16 * 64 + v / 64 % 64) * 64 + v % 64 = v := by omega
    simp only [List.cons_append, List.nil_append]
    rw [piecesFrom_lead _ hlead, piecesFrom_inner _ hlow hhigh,
      piecesFrom_last _ (Nat.le_add_left _ _) hlast, hvalue, hback]
  · have hlead := lead_four (v / 262144 % 8) (by omega)
    have hlow :
        (if v / 262144 % 8 = 0 then 0x90 else 0x80 : UInt8).toNat ≤ v / 4096 % 64 + 128 := by
      split
      · change 0x90 ≤ _
        omega
      · exact Nat.le_add_left _ _
    have hhigh :
        v / 4096 % 64 + 128 ≤ (if v / 262144 % 8 = 4 then 0x8F else 0xBF : UInt8).toNat := by
      split
      · change _ ≤ 0x8F
        omega
      · change _ ≤ 0xBF
        omega
    have hinner : v / 64 % 64 + 128 ≤ 0xBF := by omega
    have hvalue :
        ((v / 262144 % 8 * 64 + v / 4096 % 64) * 64 + v / 64 % 64) * 64 + v % 64 = v := by omega
    simp only [List.cons_append, List.nil_append]
    rw [piecesFrom_lead _ hlead, piecesFrom_inner _ hlow hhigh,
      piecesFrom_inner _ (Nat.le_add_left _ _) hinner,
      piecesFrom_last _ (Nat.le_add_left _ _) hlast, hvalue, hback]

/-- Encoded text has no bytes that are out of place. -/
theorem pieces_encode (s : String) : pieces (encode s) = s.toList.map some := by
  rw [encode, pieces]
  induction s.toList with
  | nil => rfl
  | cons c cs ih =>
    rw [List.flatMap_cons, piecesFrom_utf8EncodeChar, ih, List.map_cons]

/-- Decoding inverts encoding. -/
theorem decode?_encode (s : String) : decode? (encode s) = some s := by
  have hall (cs : List Char) : (cs.map some).mapM id = some cs := by
    induction cs with
    | nil => rfl
    | cons c cs ih => simp [ih]
  rw [decode?, pieces_encode, hall, Option.map_some, String.ofList_toList]

theorem encode_append (s t : String) : encode (s ++ t) = encode s ++ encode t := by
  rw [encode, String.toList_append, List.flatMap_append]
  rfl

/-- The bytes of a character that is no control character are none either. -/
theorem le_of_mem_utf8EncodeChar {c : Char} (hc : ' ' ≤ c) {b : UInt8}
    (hb : b ∈ String.utf8EncodeChar c) : 0x20 ≤ b := by
  have hblank : 0x20 ≤ c.val.toNat := hc
  have hbound (k : Nat) (hlow : 0x20 ≤ k) (hhigh : k < 256) : 0x20 ≤ UInt8.ofNat k := by
    rw [UInt8.le_iff_toNat_le, UInt8.toNat_ofNat']
    change 0x20 ≤ _
    omega
  unfold String.utf8EncodeChar at hb
  dsimp only at hb
  generalize c.val.toNat = v at hblank hb
  split at hb
  · rw [List.mem_singleton] at hb
    exact hb ▸ hbound v hblank (by omega)
  split at hb
  · simp only [List.mem_cons, List.not_mem_nil, or_false] at hb
    rcases hb with rfl | rfl <;> exact hbound _ (by omega) (by omega)
  split at hb
  · simp only [List.mem_cons, List.not_mem_nil, or_false] at hb
    rcases hb with rfl | rfl | rfl <;> exact hbound _ (by omega) (by omega)
  · simp only [List.mem_cons, List.not_mem_nil, or_false] at hb
    rcases hb with rfl | rfl | rfl | rfl <;> exact hbound _ (by omega) (by omega)

theorem le_of_mem_encode {s : String} (hs : ∀ c ∈ s.toList, ' ' ≤ c) {b : UInt8}
    (hb : b ∈ encode s) : 0x20 ≤ b := by
  obtain ⟨c, hc, hb⟩ := List.mem_flatMap.mp hb
  exact le_of_mem_utf8EncodeChar (hs c hc) hb

end MountControl.Utf8
