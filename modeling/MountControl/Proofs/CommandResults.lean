import Mathlib.Data.Nat.Digits.Defs
import MountControl.Proofs.DeviceReturns
import MountControl.Proofs.NameTables

namespace MountControl

def littleEndian (bytes : Bytes) : Nat :=
  Nat.ofDigits 256 (bytes.map UInt8.toNat)

/-- The value of four bytes, of which those past the end count as zeros. -/
theorem littleEndian_take_four (bytes : Bytes) :
    littleEndian (bytes.take 4) = (bytes[0]?.getD 0).toNat + 0x100 * (bytes[1]?.getD 0).toNat +
      0x10000 * (bytes[2]?.getD 0).toNat + 0x1000000 * (bytes[3]?.getD 0).toNat := by
  unfold littleEndian
  rcases bytes with _ | ⟨b₀, _ | ⟨b₁, _ | ⟨b₂, _ | ⟨b₃, rest⟩⟩⟩⟩ <;>
    simp [Nat.ofDigits_cons] <;> omega

/-- Four bytes in a row, with zeros for those past the end, make the word that they spell. -/
theorem toNat_wordOf_getElem? (data : Bytes) (k : Nat) :
    (wordOf (data[k]?.getD 0) (data[k + 1]?.getD 0) (data[k + 2]?.getD 0)
      (data[k + 3]?.getD 0)).toNat = littleEndian ((data.drop k).take 4) := by
  have hlt (b : UInt8) : b.toNat < 256 := b.toNat_lt
  have h₀ := hlt (data[k]?.getD 0)
  have h₁ := hlt (data[k + 1]?.getD 0)
  have h₂ := hlt (data[k + 2]?.getD 0)
  have h₃ := hlt (data[k + 3]?.getD 0)
  rw [littleEndian_take_four, wordOf, UInt32.toNat_ofNat']
  simp only [List.getElem?_drop, Nat.add_zero]
  omega

namespace Snapshot

/-- The counters are the words that data begins with, in the driver's order. Bytes that are not
there count as zeros. -/
structure Spelled (s : Snapshot) (data : Bytes) : Prop where
  inUseShort : s.inUseShort.toNat = littleEndian (data.take 4)
  inUseLong : s.inUseLong.toNat = littleEndian ((data.drop 4).take 4)
  inUseOneTime : s.inUseOneTime.toNat = littleEndian ((data.drop 8).take 4)
  freeShort : s.freeShort.toNat = littleEndian ((data.drop 12).take 4)
  freeLong : s.freeLong.toNat = littleEndian ((data.drop 16).take 4)

/-- The data determine the counters. -/
theorem Spelled.unique {s s' : Snapshot} {data : Bytes} (h : s.Spelled data)
    (h' : s'.Spelled data) : s = s' := by
  obtain ⟨a, b, c, d, e⟩ := s
  obtain ⟨a', b', c', d', e'⟩ := s'
  obtain rfl : a = a' := UInt32.toNat_inj.mp (h.inUseShort.trans h'.inUseShort.symm)
  obtain rfl : b = b' := UInt32.toNat_inj.mp (h.inUseLong.trans h'.inUseLong.symm)
  obtain rfl : c = c' := UInt32.toNat_inj.mp (h.inUseOneTime.trans h'.inUseOneTime.symm)
  obtain rfl : d = d' := UInt32.toNat_inj.mp (h.freeShort.trans h'.freeShort.symm)
  obtain rfl : e = e' := UInt32.toNat_inj.mp (h.freeLong.trans h'.freeLong.symm)
  rfl

/-- Whatever the length of the data, twenty bytes that begin with it are a snapshot. -/
theorem ofBytes_padded (data : Bytes) :
    ∃ s, ofBytes ((List.range wireSize).map fun k => data[k]?.getD 0) = .ok s ∧ s.Spelled data := by
  let word (k : Nat) : UInt32 := wordOf (data[k]?.getD 0) (data[k + 1]?.getD 0)
    (data[k + 2]?.getD 0) (data[k + 3]?.getD 0)
  have hword (k : Nat) : (word k).toNat = littleEndian ((data.drop k).take 4) :=
    toNat_wordOf_getElem? data k
  exact ⟨⟨word 0, word 4, word 8, word 12, word 16⟩, rfl,
    ⟨hword 0, hword 4, hword 8, hword 12, hword 16⟩⟩

end Snapshot

namespace Operation

def entryBuffer : Operation → Option Bytes
  | resetCache => none
  | showConnections => some (List.replicate Snapshot.wireSize 0)

theorem entry_eq (op : Operation) : Reference.entry op.code none = op.entryBuffer := by
  cases op <;> rfl

end Operation

/-- What an operation comes to by the driver's answer to its call. -/
inductive Settles (limit : Option Duration) : Operation → Answer → Except Halt Outcome → Prop
  | refused {op cause} :
    Settles limit op (.refuse cause) (.error (.failure (.protocolRejected op.code cause)))
  | timedOut {op d} (hl : limit = some d) :
    Settles limit op .silence (.error (.failure (.timedOut op.code d)))
  | workerDied {op d message} (hl : limit = some d) :
    Settles limit op (.abort message) (.error (.failure
      (.workerFailed op.code (.other "device-control worker exited without a reply"))))
  | brokeOff {op message} (hl : limit = none) :
    Settles limit op (.abort message) (.error (.aborted message))
  -- a driver that is waited for is released in the end, with status 0 and nothing written
  | released {op r} (hl : limit = none) (hr : Settles limit op (.reply 0 []) r) :
    Settles limit op .silence r
  | failed {op status data} (hs : status ≠ 0) :
    Settles limit op (.reply status data) (.error (.failure (.operationFailed op status)))
  | reset {data} : Settles limit .resetCache (.reply 0 data) (.ok .cacheReset)
  | counted {data s} (hs : Snapshot.Spelled s data) :
    Settles limit .showConnections (.reply 0 data) (.ok (.connections s))

/-- What a command comes to, by the first stage that fails. -/
inductive Ends (t : Transport) (driver : Driver) (command : String) (mount : Path) :
    Except Halt Outcome → Prop
  | unrecognised (hn : ∀ op : Operation, ¬ op.NamedBy command) :
    Ends t driver command mount (.error (.failure (.invalidCommand command)))
  | unresolved {op : Operation} (hn : op.NamedBy command) (hm : mount = []) :
    Ends t driver command mount (.error (.failure (.mountUnavailable mount .emptyPath)))
  | unopened {op : Operation} {path cause} (hn : op.NamedBy command)
    (hp : resolveMount t.cwd mount = .ok path) (ho : driver.opening path = some cause) :
    Ends t driver command mount (.error (.failure (.mountUnavailable path cause)))
  | settled {op : Operation} {path r} (hn : op.NamedBy command)
    (hp : resolveMount t.cwd mount = .ok path) (ho : driver.opening path = none)
    (hs : Settles t.limit op (driver.answer op.code op.entryBuffer) r) :
    Ends t driver command mount r

/-- Every answer to an operation comes to something. -/
theorem Settles.total (limit : Option Duration) (op : Operation) (answer : Answer) :
    ∃ r, Settles limit op answer r := by
  have hreply (status : Int32) (data : Bytes) : ∃ r, Settles limit op (.reply status data) r := by
    by_cases hs : status = 0
    · subst hs
      cases op with
      | resetCache => exact ⟨_, .reset⟩
      | showConnections =>
        obtain ⟨s, _, hs⟩ := Snapshot.ofBytes_padded data
        exact ⟨_, .counted hs⟩
    · exact ⟨_, .failed hs⟩
  cases answer with
  | reply status data => exact hreply status data
  | refuse cause => exact ⟨_, .refused⟩
  | silence =>
    cases hl : limit with
    | some d => exact ⟨_, .timedOut rfl⟩
    | none =>
      obtain ⟨r, hr⟩ := hreply 0 []
      exact ⟨r, .released rfl (hl ▸ hr)⟩
  | abort message =>
    cases limit with
    | some d => exact ⟨_, .workerDied rfl⟩
    | none => exact ⟨_, .brokeOff rfl⟩

/-- Every command on every mount comes to something. -/
theorem Ends.total (t : Transport) (driver : Driver) (command : String) (mount : Path) :
    ∃ r, Ends t driver command mount r := by
  by_cases hn : ∃ op : Operation, op.NamedBy command
  · obtain ⟨op, hn⟩ := hn
    cases hp : resolveMount t.cwd mount with
    | error e => exact ⟨_, .unresolved hn (resolveMount_error hp).1⟩
    | ok path =>
      cases ho : driver.opening path with
      | some cause => exact ⟨_, .unopened hn hp ho⟩
      | none =>
        obtain ⟨r, hr⟩ := Settles.total t.limit op (driver.answer op.code op.entryBuffer)
        exact ⟨r, .settled hn hp ho hr⟩
  · exact ⟨_, .unrecognised fun op h => hn ⟨op, h⟩⟩

theorem overwrite_nil (buffer : Bytes) : overwrite buffer [] = buffer := by
  rw [overwrite, List.take_nil, List.nil_append, List.length_nil, List.drop_zero]

namespace Transport

variable {t : Transport} {driver : Driver} {mount path : Path} {op : Operation}

/-- A driver that is waited for until it is released leaves the buffer as it was. -/
theorem invoke_of_released {code : RequestCode} {input : Option Bytes} {buffer : Bytes}
    (hl : t.limit = none) (hb : transferBuffer code input = .ok buffer)
    (hp : resolveMount t.cwd mount = .ok path) (ho : driver.opening path = none)
    (ha : driver.answer code (Reference.entry code input) = .silence) :
    (t.invoke driver mount code input).result = .ok ⟨0, Reference.output code input []⟩ := by
  have hout := Reference.output_eq [] hb
  rw [overwrite_nil, ite_self] at hout
  rw [invoke_of_opened hb hp ho]
  simp only [Reference.visibleBuffer_eq hb, ha, hl, conclude, Conclusion.result, hout]

theorem invoke_of_abort {code : RequestCode} {input : Option Bytes} {buffer : Bytes}
    {message : String} (hb : transferBuffer code input = .ok buffer)
    (hp : resolveMount t.cwd mount = .ok path) (ho : driver.opening path = none)
    (ha : driver.answer code (Reference.entry code input) = .abort message) :
    (t.invoke driver mount code input).result = match t.limit with
      | some _ => Conclusion.workerDied.result code
      | none => .error (.aborted message) := by
  rw [invoke_of_opened hb hp ho]
  simp only [Reference.visibleBuffer_eq hb, ha, conclude]
  cases t.limit <;> rfl

/-- Status 0 gives the outcome that is decoded from the data, however long it is. -/
theorem run_of_decoded {data : Bytes} {outcome : Outcome}
    (h : (t.invoke driver mount op.code none).result =
      .ok ⟨0, Reference.output op.code none data⟩)
    (hs : Settles t.limit op (.reply 0 data) (.ok outcome)) :
    (t.run driver op mount).result = .ok outcome := by
  have hd : op.decode (Reference.output op.code none data) = .ok outcome := by
    cases hs with
    | reset => rfl
    | counted hs =>
      -- the buffer holds the data, cut or filled up to the size that is decoded
      have hout : Reference.output Operation.showConnections.code none data =
          (List.range Snapshot.wireSize).map fun k => data[k]?.getD 0 := rfl
      obtain ⟨s, hok, hs'⟩ := Snapshot.ofBytes_padded data
      rw [hout, Operation.decode, hok, hs.unique hs']
  rw [run_of_reply h]
  change (op.decode (Reference.output op.code none data)).mapError Halt.failure = .ok outcome
  rw [hd]
  rfl

/-- An operation whose root can be opened results in what its answer comes to. -/
theorem run_of_settles {r : Except Halt Outcome} (hp : resolveMount t.cwd mount = .ok path)
    (ho : driver.opening path = none)
    (hs : Settles t.limit op (driver.answer op.code op.entryBuffer) r) :
    (t.run driver op mount).result = r := by
  have hb := transferBuffer_none op.code
  rw [← op.entry_eq] at hs
  generalize ha : driver.answer op.code (Reference.entry op.code none) = answer at hs
  cases hs with
  | refused => exact t.run_of_refuse driver op hp ho ha
  | timedOut hl => exact t.run_of_silence driver op hp ho hl ha
  | workerDied hl =>
    apply run_of_halt
    rw [invoke_of_abort hb hp ho ha, hl]
    rfl
  | brokeOff hl =>
    apply run_of_halt
    rw [invoke_of_abort hb hp ho ha, hl]
  | released hl hr =>
    have hinvoke := invoke_of_released hl hb hp ho ha
    -- the status is 0, so what the release comes to is an outcome
    cases hr with
    | failed hs => exact absurd rfl hs
    | reset => exact run_of_decoded hinvoke .reset
    | counted hs => exact run_of_decoded hinvoke (.counted hs)
  | failed hs => exact t.run_of_status driver op hp ho ha hs
  | reset => exact run_of_decoded (invoke_of_reply hb hp ho ha).1 .reset
  | counted hs =>
    exact run_of_decoded (invoke_of_reply hb hp ho ha).1 (.counted hs)

theorem execute_of_ends {command : String} {r : Except Halt Outcome}
    (h : Ends t driver command mount r) : (t.execute driver command mount).result = r := by
  cases h with
  | unrecognised hn =>
    obtain ⟨fault, hf⟩ := Operation.ofText_error_of_unnamed hn
    rw [execute_of_unknown hf]
  | unresolved hn hm =>
    subst hm
    rw [execute_of_known (Operation.ofText_eq_ok_iff.mpr hn)]
    exact (t.run_of_unresolved driver _ (resolveMount_nil t.cwd)).1
  | unopened hn hp ho =>
    rw [execute_of_known (Operation.ofText_eq_ok_iff.mpr hn)]
    exact (t.run_of_unopened driver _ hp ho).1
  | settled hn hp ho hs =>
    rw [execute_of_known (Operation.ofText_eq_ok_iff.mpr hn)]
    exact run_of_settles hp ho hs

end Transport

/-- No operation's input is too long, and no reply is of the wrong size. -/
theorem Ends.not_malformed {t : Transport} {driver : Driver} {command : String} {mount : Path}
    {e : ControlError} (h : Ends t driver command mount (.error (.failure e))) :
    (∀ code size actual, e ≠ .payloadTooLarge code size actual) ∧
      ∀ op fault, e ≠ .malformedReply op fault := by
  cases h with
  | unrecognised | unresolved | unopened => exact ⟨by simp, by simp⟩
  | settled hn hp ho hs =>
    generalize driver.answer _ _ = answer at hs
    cases hs with
    | refused | timedOut | workerDied | failed => exact ⟨by simp, by simp⟩
    | released hl hr =>
      cases hr with
      | failed hs => exact absurd rfl hs

/-- A command comes to what the rules say and to nothing else: to the failure of the first stage
that fails, or to the outcome that is decoded from the reply. -/
theorem Transport.execute_result_iff (t : Transport) (driver : Driver) (command : String)
    (mount : Path) (r : Except Halt Outcome) :
    ((t.execute driver command mount).result = r ↔ Ends t driver command mount r) ∧
      (∀ code size actual, (t.execute driver command mount).result ≠
        .error (.failure (.payloadTooLarge code size actual))) ∧
      ∀ op fault, (t.execute driver command mount).result ≠
        .error (.failure (.malformedReply op fault)) := by
  have hends : Ends t driver command mount (t.execute driver command mount).result := by
    obtain ⟨r, hr⟩ := Ends.total t driver command mount
    rwa [execute_of_ends hr]
  refine ⟨⟨?_, execute_of_ends⟩, ?_, ?_⟩
  · rintro rfl
    exact hends
  · intro code size actual h
    rw [h] at hends
    exact hends.not_malformed.1 code size actual rfl
  · intro op fault h
    rw [h] at hends
    exact hends.not_malformed.2 op fault rfl

end MountControl
