import MountControl.Control.Device
import MountControl.Proofs.SessionEvents

namespace MountControl

theorem Snapshot.ofBytes_of_length {bytes : Bytes} (h : bytes.length = Snapshot.wireSize) :
    ∃ s, Snapshot.ofBytes bytes = .ok s := by
  match bytes, h with
  | [a₀, a₁, a₂, a₃, b₀, b₁, b₂, b₃, c₀, c₁, c₂, c₃, d₀, d₁, d₂, d₃, e₀, e₁, e₂, e₃], _ =>
    exact ⟨⟨wordOf a₀ a₁ a₂ a₃, wordOf b₀ b₁ b₂ b₃, wordOf c₀ c₁ c₂ c₃, wordOf d₀ d₁ d₂ d₃,
      wordOf e₀ e₁ e₂ e₃⟩, rfl⟩

/-- An operation can read what its own request returns, however much the device put there. -/
theorem Operation.decode_output (op : Operation) (data : Bytes) :
    ∃ outcome, op.decode (Reference.output op.code none data) = .ok outcome := by
  cases op with
  | resetCache => exact ⟨.cacheReset, rfl⟩
  | showConnections =>
    -- the data fills the transfer size of the request, and that is the size of a snapshot
    have hlength :
        (Reference.output showConnections.code none data).length = Snapshot.wireSize := by
      rw [Reference.length_output]
      rfl
    obtain ⟨s, hs⟩ := Snapshot.ofBytes_of_length hlength
    refine ⟨.connections s, ?_⟩
    simp only [decode, hs]

namespace Transport

section Returns

variable (t : Transport) (driver : Driver) (op : Operation) {mount path : Path}

theorem run_of_unresolved {e : ControlError} (hp : resolveMount t.cwd mount = .error e) :
    (t.run driver op mount).result = .error (.failure e) ∧
      (t.run driver op mount).events = [.returned] := by
  have hb := transferBuffer_none op.code
  refine ⟨run_of_halt ?_, ?_⟩
  · rw [invoke_of_unresolved hb hp]
  · rw [run_events, invoke_of_unresolved hb hp]

theorem run_of_unopened {cause : SystemError} (hp : resolveMount t.cwd mount = .ok path)
    (ho : driver.opening path = some cause) :
    (t.run driver op mount).result = .error (.failure (.mountUnavailable path cause)) ∧
      (t.run driver op mount).events = [.opened path, .returned] := by
  have hb := transferBuffer_none op.code
  refine ⟨run_of_halt ?_, ?_⟩
  · rw [invoke_of_unopened hb hp ho]
  · rw [run_events, invoke_of_unopened hb hp ho]

/-- An operation whose mount is opened makes one call, and it is its own. -/
theorem run_calls (hp : resolveMount t.cwd mount = .ok path) (ho : driver.opening path = none) :
    (t.run driver op mount).events.filterMap Event.code? = [op.code] := by
  rw [run_events, invoke_of_opened (transferBuffer_none op.code) hp ho]
  dsimp only
  generalize conclude t.limit op.code _ _ = conclusion
  cases conclusion <;> rfl

theorem run_of_refuse {cause : SystemError} (hp : resolveMount t.cwd mount = .ok path)
    (ho : driver.opening path = none)
    (ha : driver.answer op.code (Reference.entry op.code none) = .refuse cause) :
    (t.run driver op mount).result = .error (.failure (.protocolRejected op.code cause)) := by
  have hb := transferBuffer_none op.code
  apply run_of_halt
  rw [invoke_of_opened hb hp ho]
  simp only [Reference.visibleBuffer_eq hb, ha, conclude, Conclusion.result]

/-- A driver that is silent past the limit is given up, and its root is closed after the return. -/
theorem run_of_silence {d : Duration} (hp : resolveMount t.cwd mount = .ok path)
    (ho : driver.opening path = none) (hl : t.limit = some d)
    (ha : driver.answer op.code (Reference.entry op.code none) = .silence) :
    (t.run driver op mount).result = .error (.failure (.timedOut op.code d)) := by
  have hb := transferBuffer_none op.code
  apply run_of_halt
  rw [invoke_of_opened hb hp ho]
  simp only [Reference.visibleBuffer_eq hb, ha, hl, conclude, Conclusion.result]

/-- A status other than zero is the driver's refusal under that number. -/
theorem run_of_status {status : Int32} {data : Bytes} (hp : resolveMount t.cwd mount = .ok path)
    (ho : driver.opening path = none)
    (ha : driver.answer op.code (Reference.entry op.code none) = .reply status data)
    (hs : status ≠ 0) :
    (t.run driver op mount).result = .error (.failure (.operationFailed op status)) := by
  rw [run_of_reply (invoke_of_reply (transferBuffer_none op.code) hp ho ha).1]
  simp only [Reply.check, if_neg hs]
  rfl

/-- A reply with status zero is the outcome of the operation, if its data can be read. -/
theorem run_of_success {data : Bytes} {outcome : Outcome}
    (hp : resolveMount t.cwd mount = .ok path) (ho : driver.opening path = none)
    (ha : driver.answer op.code (Reference.entry op.code none) = .reply 0 data)
    (hd : op.decode (Reference.output op.code none data) = .ok outcome) :
    (t.run driver op mount).result = .ok outcome := by
  rw [run_of_reply (invoke_of_reply (transferBuffer_none op.code) hp ho ha).1]
  change (op.decode (Reference.output op.code none data)).mapError Halt.failure = .ok outcome
  rw [hd]
  rfl

end Returns

end Transport

end MountControl
