import MountControl.Control.Transport
import MountControl.Proofs.CodeFields

namespace MountControl

/-- The only path that cannot be resolved is the empty one. -/
theorem resolveMount_error {cwd mount : Path} {e : ControlError}
    (h : resolveMount cwd mount = .error e) :
    mount = [] ∧ e = .mountUnavailable [] .emptyPath := by
  by_cases hm : mount = []
  · subst hm
    simp only [resolveMount, Path.absolute?, if_true] at h
    cases h
    exact ⟨rfl, rfl⟩
  · simp only [resolveMount, Path.absolute?, if_neg hm] at h
    cases h

theorem resolveMount_nil (cwd : Path) :
    resolveMount cwd [] = .error (.mountUnavailable [] .emptyPath) :=
  rfl

theorem resolveMount_ne_nil {cwd mount path : Path} (h : resolveMount cwd mount = .ok path) :
    mount ≠ [] := by
  rintro rfl
  cases h

/-- The only input that is refused is one longer than the code has room for. -/
theorem transferBuffer_error {code : RequestCode} {input : Option Bytes} {e : ControlError}
    (h : transferBuffer code input = .error e) :
    ∃ bytes, input = some bytes ∧ code.direction.sendsInput ∧ code.size.toNat < bytes.length ∧
      e = .payloadTooLarge code code.size.toNat bytes.length := by
  simp only [transferBuffer] at h
  split at h
  · rename_i bytes hs
    split at h
    · rename_i hlong
      cases h
      exact ⟨bytes, rfl, hs, hlong, rfl⟩
    · cases h
  · cases h

/-- Without an input the buffer is all zeros. -/
theorem transferBuffer_none (code : RequestCode) :
    transferBuffer code none = .ok (List.replicate code.size.toNat 0) :=
  rfl

/-- A buffer holds the input, if the request sends one, and zeros after it. -/
theorem transferBuffer_ok {code : RequestCode} {input : Option Bytes} {buffer : Bytes}
    (h : transferBuffer code input = .ok buffer) :
    ∃ sent, sent = (if code.direction.sendsInput then input.getD [] else []) ∧
      sent.length ≤ code.size.toNat ∧
      buffer = sent ++ List.replicate (code.size.toNat - sent.length) 0 := by
  refine ⟨_, rfl, ?_⟩
  cases input with
  | none =>
    cases h
    simp
  | some bytes =>
    cases hs : code.direction.sendsInput with
    | false =>
      simp only [transferBuffer, hs] at h
      cases h
      simp
    | true =>
      simp only [transferBuffer, hs] at h
      split at h
      · cases h
      · rename_i hshort
        cases h
        exact ⟨Nat.le_of_not_lt hshort, rfl⟩

theorem length_overwrite (buffer data : Bytes) :
    (overwrite buffer data).length = buffer.length := by
  rw [overwrite, List.length_append, List.length_take, List.length_drop]
  omega

/-- The driver's data replaces the start of the buffer, as far as both go. -/
theorem getElem?_overwrite (buffer data : Bytes) (k : Nat) :
    (overwrite buffer data)[k]? = buffer[k]?.map fun old => data[k]?.getD old := by
  by_cases hb : k < buffer.length
  · by_cases hd : k < data.length
    · have hk : k < (data.take buffer.length).length := by
        rw [List.length_take]
        omega
      rw [overwrite, List.getElem?_append_left hk, List.getElem?_take_of_lt hb,
        List.getElem?_eq_getElem hb, List.getElem?_eq_getElem hd]
      rfl
    -- past the driver's data the buffer is as it was
    · have hlen : (data.take buffer.length).length = data.length := by
        rw [List.length_take]
        omega
      have hk : (data.take buffer.length).length ≤ k := by omega
      have hsum : data.length + (k - data.length) = k := by omega
      rw [overwrite, List.getElem?_append_right hk, hlen, List.getElem?_drop, hsum,
        List.getElem?_eq_none (Nat.le_of_not_lt hd), List.getElem?_eq_getElem hb]
      rfl
  · have hlen : (overwrite buffer data).length ≤ k := by
      rw [length_overwrite]
      omega
    rw [List.getElem?_eq_none hlen, List.getElem?_eq_none (Nat.le_of_not_lt hb)]
    rfl

namespace Transport

section Stages

variable {t : Transport} {driver : Driver} {mount : Path} {code : RequestCode}
  {input : Option Bytes} {buffer : Bytes} {path : Path}

theorem invoke_of_refused_input {e : ControlError} (hb : transferBuffer code input = .error e) :
    t.invoke driver mount code input = ⟨.error (.failure e), [.returned], []⟩ := by
  simp only [invoke, hb]

theorem invoke_of_unresolved {e : ControlError} (hb : transferBuffer code input = .ok buffer)
    (hp : resolveMount t.cwd mount = .error e) :
    t.invoke driver mount code input = ⟨.error (.failure e), [.returned], []⟩ := by
  simp only [invoke, hb, hp]

theorem invoke_of_unopened {cause : SystemError} (hb : transferBuffer code input = .ok buffer)
    (hp : resolveMount t.cwd mount = .ok path) (ho : driver.opening path = some cause) :
    t.invoke driver mount code input =
      ⟨.error (.failure (.mountUnavailable path cause)), [.opened path, .returned], []⟩ := by
  simp only [invoke, hb, hp, ho]

/-- Once the root is open the call is made, and its conclusion decides the result and the events. -/
theorem invoke_of_opened (hb : transferBuffer code input = .ok buffer)
    (hp : resolveMount t.cwd mount = .ok path) (ho : driver.opening path = none) :
    t.invoke driver mount code input =
      let visible := visibleBuffer code buffer
      let conclusion := conclude t.limit code buffer (driver.answer code visible)
      ⟨conclusion.result code, [.opened path, .called code visible] ++ conclusion.ending,
        [noteOpened path, noteIssuing path code] ++ conclusion.notes code⟩ := by
  simp only [invoke, hb, hp, ho]

end Stages

end Transport

namespace Reference

def size (code : RequestCode) : Nat :=
  code.raw.toNat / 2 ^ 16 % 2 ^ 14

def excess (code : RequestCode) (input : Option Bytes) : Option Nat :=
  if code.directionDigit % 2 = 1 ∧ size code < (input.getD []).length then
    some (input.getD []).length
  else none

def entryByte (code : RequestCode) (input : Option Bytes) (k : Nat) : UInt8 :=
  if code.directionDigit % 2 = 1 then (input.getD [])[k]?.getD 0 else 0

def entry (code : RequestCode) (input : Option Bytes) : Option Bytes :=
  if code.directionDigit = 0 then none
  else some ((List.range (size code)).map (entryByte code input))

def output (code : RequestCode) (input : Option Bytes) (data : Bytes) : Bytes :=
  if 2 ≤ code.directionDigit then
    (List.range (size code)).map fun k => data[k]?.getD (entryByte code input k)
  else []

def invoke (cwd : Path) (opening : Path → Option SystemError)
    (reply : RequestCode → Option Bytes → Int32 × Bytes) (mount : Path) (code : RequestCode)
    (input : Option Bytes) : Except Halt Reply × List Event :=
  match excess code input with
  | some actual => (.error (.failure (.payloadTooLarge code (size code) actual)), [.returned])
  | none =>
    match resolveMount cwd mount with
    | .error e => (.error (.failure e), [.returned])
    | .ok path =>
      match opening path with
      | some cause =>
        (.error (.failure (.mountUnavailable path cause)), [.opened path, .returned])
      | none =>
        let (status, data) := reply code (entry code input)
        (.ok ⟨status, output code input data⟩,
          [.opened path, .called code (entry code input), .closed, .returned])

/-- A refused input is one that the reference finds to be in excess, by the same count. -/
theorem excess_of_refused {code : RequestCode} {input : Option Bytes} {e : ControlError}
    (h : transferBuffer code input = .error e) :
    ∃ actual, excess code input = some actual ∧ e = .payloadTooLarge code (size code) actual := by
  obtain ⟨bytes, rfl, hs, hlong, rfl⟩ := transferBuffer_error h
  rw [RequestCode.toNat_size] at hlong ⊢
  have hodd := code.sendsInput_iff.mp hs
  exact ⟨bytes.length,
    by simp only [excess, Option.getD_some, hodd, size, hlong, and_self, if_true],
    rfl⟩

theorem excess_of_accepted {code : RequestCode} {input : Option Bytes} {buffer : Bytes}
    (h : transferBuffer code input = .ok buffer) : excess code input = none := by
  unfold excess
  apply if_neg
  rintro ⟨hodd, hlong⟩
  cases input with
  | none => exact Nat.not_lt_zero _ hlong
  | some bytes =>
    rw [Option.getD_some, size, ← RequestCode.toNat_size] at hlong
    simp only [transferBuffer, code.sendsInput_iff.mpr hodd, hlong, if_true] at h
    cases h

/-- The buffer before the call, byte by byte. -/
theorem transferBuffer_eq {code : RequestCode} {input : Option Bytes} {buffer : Bytes}
    (h : transferBuffer code input = .ok buffer) :
    buffer = (List.range (size code)).map (entryByte code input) := by
  obtain ⟨sent, hsent, hle, rfl⟩ := transferBuffer_ok h
  have hbyte (k : Nat) : entryByte code input k = sent[k]?.getD 0 := by
    rw [entryByte, hsent]
    simp only [code.sendsInput_iff]
    split <;> rfl
  rw [RequestCode.toNat_size] at hle ⊢
  -- up to the end of the input the bytes are its own, and zeros after it
  apply List.ext_getElem
  · rw [List.length_append, List.length_replicate, List.length_map, List.length_range, size]
    omega
  · intro k _ _
    rw [List.getElem_map, List.getElem_range, hbyte]
    by_cases hk : k < sent.length
    · rw [List.getElem_append_left hk, List.getElem?_eq_getElem hk, Option.getD_some]
    · rw [List.getElem_append_right (Nat.le_of_not_lt hk), List.getElem_replicate,
        List.getElem?_eq_none (Nat.le_of_not_lt hk), Option.getD_none]

/-- The driver is shown what the reference has it see. -/
theorem visibleBuffer_eq {code : RequestCode} {input : Option Bytes} {buffer : Bytes}
    (h : transferBuffer code input = .ok buffer) :
    visibleBuffer code buffer = entry code input := by
  unfold visibleBuffer entry
  by_cases hd : code.directionDigit = 0
  · have hp : code.direction.hasPayload = false := by
      simpa only [hd, ne_eq, not_true_eq_false, iff_false, Bool.not_eq_true]
        using code.hasPayload_iff
    simp only [hp, hd, Bool.false_eq_true, if_false, if_true]
  · simp only [code.hasPayload_iff.mpr hd, hd, if_true, if_false, transferBuffer_eq h]

/-- The data of a reply, from the buffer as the driver left it. -/
theorem output_eq {code : RequestCode} {input : Option Bytes} {buffer : Bytes} (data : Bytes)
    (h : transferBuffer code input = .ok buffer) :
    (if code.direction.returnsOutput then
      (if code.direction.hasPayload then overwrite buffer data else buffer) else []) =
      output code input data := by
  unfold output
  by_cases hd : 2 ≤ code.directionDigit
  · have hp : code.direction.hasPayload := code.hasPayload_iff.mpr (by omega)
    simp only [code.returnsOutput_iff.mpr hd, hp, hd, if_true]
    apply List.ext_getElem?
    intro k
    rw [getElem?_overwrite, transferBuffer_eq h, List.getElem?_map, List.getElem?_map]
    by_cases hk : k < size code
    · rw [List.getElem?_range hk]
      rfl
    · have hnone : (List.range (size code))[k]? = none := by
        apply List.getElem?_eq_none
        rw [List.length_range]
        omega
      rw [hnone]
      rfl
  · have hr : code.direction.returnsOutput = false := by
      simpa only [hd, iff_false, Bool.not_eq_true] using code.returnsOutput_iff
    simp only [hr, hd, Bool.false_eq_true, if_false]

/-- A reply has as many bytes as the code says, or none if the code does not return any. -/
theorem length_output (code : RequestCode) (input : Option Bytes) (data : Bytes) :
    (output code input data).length = if 2 ≤ code.directionDigit then size code else 0 := by
  unfold output
  split
  · rw [List.length_map, List.length_range]
  · rfl

end Reference

/-- A call that the driver replies to, with the buffers as the reference has them. -/
theorem Transport.invoke_of_reply {t : Transport} {driver : Driver} {mount path : Path}
    {code : RequestCode} {input : Option Bytes} {buffer data : Bytes} {status : Int32}
    (hb : transferBuffer code input = .ok buffer) (hp : resolveMount t.cwd mount = .ok path)
    (ho : driver.opening path = none)
    (ha : driver.answer code (Reference.entry code input) = .reply status data) :
    (t.invoke driver mount code input).result = .ok ⟨status, Reference.output code input data⟩ ∧
      (t.invoke driver mount code input).events =
        [.opened path, .called code (Reference.entry code input), .closed, .returned] := by
  rw [invoke_of_opened hb hp ho]
  simp only [Reference.visibleBuffer_eq hb, ha, conclude, Conclusion.result, Conclusion.ending,
    Reference.output_eq data hb, List.cons_append, List.nil_append, and_self]

def Driver.prompt (opening : Path → Option SystemError)
    (reply : RequestCode → Option Bytes → Int32 × Bytes) : Driver where
  opening := opening
  answer code buffer := .reply (reply code buffer).1 (reply code buffer).2

/-- An invocation that the driver answers in time comes to what the reference says, whatever the
bits of the code; the data of its reply fills the transfer size or is empty. -/
theorem Transport.invoke_eq_reference (t : Transport) (opening : Path → Option SystemError)
    (reply : RequestCode → Option Bytes → Int32 × Bytes) (mount : Path) (code : RequestCode)
    (input : Option Bytes) :
    let x := t.invoke (.prompt opening reply) mount code input
    (x.result, x.events) = Reference.invoke t.cwd opening reply mount code input ∧
      ∀ r, x.result = .ok r →
        r.data.length = if 2 ≤ code.directionDigit then Reference.size code else 0 := by
  intro x
  have hx : (x.result, x.events) = Reference.invoke t.cwd opening reply mount code input := by
    unfold Reference.invoke
    cases hb : transferBuffer code input with
    | error e =>
      obtain ⟨actual, ha, he⟩ := Reference.excess_of_refused hb
      simp only [x, invoke_of_refused_input hb, ha, he]
    | ok buffer =>
      rw [Reference.excess_of_accepted hb]
      cases hp : resolveMount t.cwd mount with
      | error e => simp only [x, invoke_of_unresolved hb hp]
      | ok path =>
        cases ho : opening path with
        | some cause =>
          have hopen : (Driver.prompt opening reply).opening path = some cause := ho
          simp only [x, invoke_of_unopened hb hp hopen, ho]
        | none =>
          have hopen : (Driver.prompt opening reply).opening path = none := ho
          obtain ⟨hresult, hevents⟩ := invoke_of_reply (t := t) hb hp hopen rfl
          simp only [x, hresult, hevents, ho]
  refine ⟨hx, ?_⟩
  intro r hr
  have hfst : x.result = (Reference.invoke t.cwd opening reply mount code input).1 :=
    congrArg Prod.fst hx
  rw [hr] at hfst
  unfold Reference.invoke at hfst
  split at hfst
  · cases hfst
  · split at hfst
    · cases hfst
    · split at hfst
      · cases hfst
      · cases hfst
        exact Reference.length_output _ _ _

end MountControl
