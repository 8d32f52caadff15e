import MountControl.Proofs.CommandResults

namespace MountControl

theorem wordBytes_wordOf (b₀ b₁ b₂ b₃ : UInt8) :
    wordBytes (wordOf b₀ b₁ b₂ b₃) = [b₀, b₁, b₂, b₃] := by
  have h₀ := b₀.toNat_lt
  have h₁ := b₁.toNat_lt
  have h₂ := b₂.toNat_lt
  have h₃ := b₃.toNat_lt
  have hword : (wordOf b₀ b₁ b₂ b₃).toNat =
      b₀.toNat + 0x100 * b₁.toNat + 0x10000 * b₂.toNat + 0x1000000 * b₃.toNat := by
    rw [wordOf, UInt32.toNat_ofNat']
    omega
  -- the digits of the word in base 256, one for each place
  have hdigit (b : UInt8) (n : Nat) (h : n % 256 = b.toNat) : UInt8.ofNat n = b := by
    apply UInt8.toNat_inj.mp
    rw [UInt8.toNat_ofNat']
    exact h
  rw [wordBytes, hword, hdigit b₀ _ (by omega), hdigit b₁ _ (by omega), hdigit b₂ _ (by omega),
    hdigit b₃ _ (by omega)]

/-- The bytes of a word spell it, the lowest first. -/
theorem littleEndian_wordBytes (w : UInt32) : littleEndian (wordBytes w) = w.toNat := by
  have hw := w.toNat_lt
  have hbyte (n : Nat) : (UInt8.ofNat n).toNat = n % 256 := UInt8.toNat_ofNat'
  have htake : (wordBytes w).take 4 = wordBytes w := rfl
  have hspelled := littleEndian_take_four (wordBytes w)
  rw [htake] at hspelled
  simp only [wordBytes, List.getElem?_cons_zero, List.getElem?_cons_succ, Option.getD_some,
    hbyte] at hspelled
  -- the remainders put together are the word, as it has no fifth digit
  rw [wordBytes, hspelled]
  omega

theorem wordBytes_injective {w w' : UInt32} (h : wordBytes w = wordBytes w') : w = w' := by
  apply UInt32.toNat_inj.mp
  rw [← littleEndian_wordBytes, h, littleEndian_wordBytes]

namespace PoolCounter

def place : PoolCounter → Nat
  | inUseShort => 0
  | inUseLong => 1
  | inUseOneTime => 2
  | freeShort => 3
  | freeLong => 4

def bytesIn (c : PoolCounter) (bytes : Bytes) : Bytes :=
  (bytes.drop (4 * c.place)).take 4

theorem bytesIn_toBytes (c : PoolCounter) (s : Snapshot) :
    c.bytesIn s.toBytes = wordBytes (s.get c) := by
  cases c <;> rfl

end PoolCounter

namespace Snapshot

/-- Whole words have the bytes that they were read from. -/
theorem flatMap_wordBytes_words (bytes : Bytes) (h : bytes.length % 4 = 0) :
    (words bytes).flatMap wordBytes = bytes := by
  induction bytes using words.induct with
  | case1 b₀ b₁ b₂ b₃ rest ih =>
    have hrest : rest.length % 4 = 0 := by
      simp only [List.length_cons] at h
      omega
    rw [words, List.flatMap_cons, wordBytes_wordOf, ih hrest]
    rfl
  | case2 bytes hshort =>
    rcases bytes with _ | ⟨b₀, _ | ⟨b₁, _ | ⟨b₂, _ | ⟨b₃, rest⟩⟩⟩⟩
    · rfl
    · exact absurd h (by simp)
    · exact absurd h (by simp)
    · exact absurd h (by simp)
    · exact (hshort b₀ b₁ b₂ b₃ rest rfl).elim

/-- What was read is written back as it was. -/
theorem toBytes_of_ofBytes {bytes : Bytes} {s : Snapshot} (h : ofBytes bytes = .ok s) :
    s.toBytes = bytes := by
  unfold ofBytes at h
  split at h
  · rename_i a b c d e hlen hwords
    have hsize : bytes.length = wireSize := beq_iff_eq.mp hlen
    have hmod : bytes.length % 4 = 0 := by rw [hsize]; rfl
    cases h
    calc toBytes ⟨a, b, c, d, e⟩ = [a, b, c, d, e].flatMap wordBytes := rfl
      _ = bytes := by rw [← hwords, flatMap_wordBytes_words bytes hmod]
  · cases h

theorem length_toBytes (s : Snapshot) : s.toBytes.length = wireSize := rfl

/-- Two snapshots with the same bytes at every place are the same. -/
theorem toBytes_injective {s s' : Snapshot} (h : s.toBytes = s'.toBytes) : s = s' := by
  apply eq_of_counters
  intro c _
  have hget : s.get c = s'.get c := by
    apply wordBytes_injective
    rw [← c.bytesIn_toBytes, ← c.bytesIn_toBytes, h]
  rw [hget]

/-- A byte string of the right size is read as the one snapshot that is sent as it. -/
theorem ofBytes_eq_ok_iff {bytes : Bytes} {s : Snapshot} :
    ofBytes bytes = .ok s ↔ bytes = s.toBytes := by
  constructor
  · intro h
    exact (toBytes_of_ofBytes h).symm
  · rintro rfl
    obtain ⟨s', hs'⟩ := ofBytes_of_length s.length_toBytes
    rw [hs', toBytes_injective (toBytes_of_ofBytes hs')]

/-- Only a wrong number of bytes is refused, and the refusal tells both numbers. -/
theorem ofBytes_eq_error_iff {bytes : Bytes} {fault : ProtocolFault} :
    ofBytes bytes = .error fault ↔
      bytes.length ≠ wireSize ∧ fault = .replySize wireSize bytes.length := by
  by_cases hlen : bytes.length = wireSize
  · obtain ⟨s, hs⟩ := ofBytes_of_length hlen
    rw [hs]
    exact iff_of_false nofun fun h => h.1 hlen
  · have hrefused : ofBytes bytes = .error (.replySize wireSize bytes.length) := by
      rw [ofBytes, beq_false_of_ne hlen]
    rw [hrefused, Except.error.injEq]
    constructor
    · rintro rfl
      exact ⟨hlen, rfl⟩
    · rintro ⟨-, rfl⟩
      rfl

/-- Snapshots and strings of twenty bytes stand for each other, both ways, and a string of another
size is refused with its size. A counter is the number that the four bytes at its place spell, the
least significant first, and two snapshots agree in it just if they agree in these four bytes. -/
theorem ofBytes_inverts_toBytes :
    (∀ bytes, (∃ s, ofBytes bytes = .ok s) ↔ bytes.length = 20) ∧
    (∀ bytes fault, ofBytes bytes = .error fault ↔
      bytes.length ≠ 20 ∧ fault = .replySize 20 bytes.length) ∧
    (∀ bytes s, ofBytes bytes = .ok s → s.toBytes = bytes) ∧
    (∀ s : Snapshot, ofBytes s.toBytes = .ok s) ∧
    (∀ bytes s, ofBytes bytes = .ok s → ∀ c : PoolCounter,
      (s.get c).toNat = littleEndian ((bytes.drop (4 * c.place)).take 4)) ∧
    (∀ bytes bytes' s s', ofBytes bytes = .ok s → ofBytes bytes' = .ok s' → ∀ c : PoolCounter,
      s.get c = s'.get c ↔
        (bytes.drop (4 * c.place)).take 4 = (bytes'.drop (4 * c.place)).take 4) := by
  refine ⟨?_, fun bytes fault => ofBytes_eq_error_iff, fun bytes s => toBytes_of_ofBytes,
    fun s => ofBytes_eq_ok_iff.mpr rfl, ?_, ?_⟩
  · intro bytes
    constructor
    · rintro ⟨s, hs⟩
      rw [← toBytes_of_ofBytes hs]
      exact s.length_toBytes
    · exact ofBytes_of_length
  · intro bytes s hs c
    obtain rfl := ofBytes_eq_ok_iff.mp hs
    change _ = littleEndian (c.bytesIn s.toBytes)
    rw [c.bytesIn_toBytes, littleEndian_wordBytes]
  · intro bytes bytes' s s' hs hs' c
    obtain rfl := ofBytes_eq_ok_iff.mp hs
    obtain rfl := ofBytes_eq_ok_iff.mp hs'
    change _ ↔ c.bytesIn s.toBytes = c.bytesIn s'.toBytes
    rw [c.bytesIn_toBytes, c.bytesIn_toBytes]
    constructor
    · intro h
      rw [h]
    · exact wordBytes_injective

end Snapshot

end MountControl
