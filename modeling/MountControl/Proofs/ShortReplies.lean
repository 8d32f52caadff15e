import MountControl.Program
import MountControl.Proofs.SnapshotBytes

/-!
Replies of fewer bytes than a snapshot has. The transfer buffer holds zeros before the call, so the
counters that the driver leaves out are read as zeros: no reply is too short, and none can be told
from the full reply that ends in those zeros.
-/

namespace MountControl

namespace Snapshot

def filled (data : Bytes) : Bytes :=
  data.take wireSize ++ List.replicate (wireSize - data.length) 0

theorem length_filled (data : Bytes) : (filled data).length = wireSize := by
  rw [filled, List.length_append, List.length_take, List.length_replicate]
  omega

/-- Only data of the full size has all that it is filled up to. -/
theorem filled_prefix_iff (data : Bytes) : filled data <+: data ↔ wireSize ≤ data.length := by
  constructor
  · intro h
    rw [← length_filled data]
    exact h.length_le
  · intro h
    have hnone : wireSize - data.length = 0 := by omega
    rw [filled, hnone, List.replicate_zero, List.append_nil]
    exact List.take_prefix wireSize data

theorem overwrite_zeros (data : Bytes) :
    overwrite (List.replicate wireSize 0) data = filled data := by
  rw [overwrite, List.length_replicate, List.drop_replicate, filled]

theorem exists_ofBytes_filled (data : Bytes) :
    ∃ s, ofBytes (filled data) = .ok s ∧ s.toBytes = filled data := by
  obtain ⟨s, hs⟩ := ofBytes_of_length (length_filled data)
  exact ⟨s, hs, toBytes_of_ofBytes hs⟩

end Snapshot

/-- The data that comes with status 0. A driver that is waited for and released at last supplies
none. -/
inductive Supplies (limit : Option Duration) : Answer → Bytes → Prop
  | replied {data} : Supplies limit (.reply 0 data) data
  | released (hl : limit = none) : Supplies limit .silence []

def Driver.connectionsAnswer (driver : Driver) : Answer :=
  driver.answer Operation.showConnections.code Operation.showConnections.entryBuffer

def Step.AsksConnections (s : Step) : Prop :=
  s.action = .run .showConnections ∨
    ∃ command, s.action = .execute command ∧ Operation.showConnections.NamedBy command

namespace Transport

variable {t : Transport} {driver driver' : Driver} {mount path : Path} {data data' : Bytes}

/-- Whatever data come with a success, the caller gets as many bytes as a snapshot has. -/
theorem conclude_of_supplies {limit : Option Duration} {answer : Answer}
    (h : Supplies limit answer data) :
    conclude limit Operation.showConnections.code (List.replicate Snapshot.wireSize 0) answer =
      .answered 0 (Snapshot.filled data) := by
  rw [← Snapshot.overwrite_zeros]
  cases h with
  | replied => rfl
  | released hl =>
    subst hl
    rw [overwrite_nil]
    rfl

/-- The call for the connections leaves the transfer buffer filled up with zeros. -/
theorem invoke_of_supplies (hp : resolveMount t.cwd mount = .ok path)
    (ho : driver.opening path = none) (hd : Supplies t.limit driver.connectionsAnswer data) :
    t.invoke driver mount Operation.showConnections.code none =
      let code := Operation.showConnections.code
      let conclusion := Conclusion.answered 0 (Snapshot.filled data)
      ⟨.ok ⟨0, Snapshot.filled data⟩,
        [.opened path, .called code Operation.showConnections.entryBuffer, .closed, .returned],
        [noteOpened path, noteIssuing path code] ++ conclusion.notes code⟩ := by
  have hb : transferBuffer Operation.showConnections.code none =
      .ok (List.replicate Snapshot.wireSize 0) := rfl
  have hvisible : visibleBuffer Operation.showConnections.code
      (List.replicate Snapshot.wireSize 0) = Operation.showConnections.entryBuffer := rfl
  have hconclude := conclude_of_supplies hd
  rw [Driver.connectionsAnswer] at hconclude
  rw [invoke_of_opened hb hp ho]
  dsimp only
  rw [hvisible, hconclude]
  rfl

/-- What is left out of a reply is taken for zeros, and the reply for a snapshot. -/
theorem run_of_supplies (hp : resolveMount t.cwd mount = .ok path)
    (ho : driver.opening path = none) (hd : Supplies t.limit driver.connectionsAnswer data) :
    ∃ snapshot, (t.run driver .showConnections mount).result = .ok (.connections snapshot) ∧
      snapshot.toBytes = Snapshot.filled data := by
  obtain ⟨snapshot, hread, hbytes⟩ := Snapshot.exists_ofBytes_filled data
  refine ⟨snapshot, ?_, hbytes⟩
  have hinvoke : (t.invoke driver mount Operation.showConnections.code none).result =
      .ok ⟨0, Snapshot.filled data⟩ := by rw [invoke_of_supplies hp ho hd]
  have hdecode : Operation.showConnections.decode (Snapshot.filled data) =
      .ok (.connections snapshot) := by rw [Operation.decode, hread]
  rw [run_of_reply hinvoke]
  change (Operation.showConnections.decode (Snapshot.filled data)).mapError Halt.failure = _
  rw [hdecode]
  rfl

/-- Drivers whose data fill up to the same bytes are told apart by nothing that a run shows. -/
theorem run_eq_of_filled_eq (hp : resolveMount t.cwd mount = .ok path)
    (ho : driver.opening path = none) (hd : Supplies t.limit driver.connectionsAnswer data)
    (ho' : driver'.opening path = none) (hd' : Supplies t.limit driver'.connectionsAnswer data')
    (h : Snapshot.filled data = Snapshot.filled data') :
    t.run driver .showConnections mount = t.run driver' .showConnections mount := by
  have hinvoke : t.invoke driver mount Operation.showConnections.code none =
      t.invoke driver' mount Operation.showConnections.code none := by
    rw [invoke_of_supplies hp ho hd, invoke_of_supplies hp ho' hd', h]
  rw [run, run, hinvoke]

theorem perform_of_asksConnections {s : Step} (hs : s.AsksConnections) :
    t.perform s = (t.run s.driver .showConnections s.mount).map .outcome := by
  obtain hrun | ⟨command, hexecute, hn⟩ := hs
  · rw [perform, hrun]
  · rw [perform, hexecute]
    dsimp only
    rw [execute_of_known (Operation.ofText_eq_ok_iff.mpr hn)]

/-- A step that asks for the connections takes whatever comes with status 0 for a snapshot, whose
bytes are those of the driver and zeros after them. They are all the driver's just if it supplied
the full size; and the step is the same as with any driver whose data fill up to the same bytes. -/
theorem short_reply_filled_up {s : Step} (hs : s.AsksConnections)
    (hp : resolveMount t.cwd s.mount = .ok path) (ho : s.driver.opening path = none)
    (hd : Supplies t.limit s.driver.connectionsAnswer data) :
    ∃ snapshot, (t.perform s).result = .ok (.outcome (.connections snapshot)) ∧
      snapshot.toBytes =
        data.take Snapshot.wireSize ++ List.replicate (Snapshot.wireSize - data.length) 0 ∧
      (snapshot.toBytes <+: data ↔ Snapshot.wireSize ≤ data.length) ∧
      ∀ driver' data', driver'.opening path = none →
        Supplies t.limit driver'.connectionsAnswer data' →
        Snapshot.filled data' = snapshot.toBytes →
        t.perform { s with driver := driver' } = t.perform s := by
  obtain ⟨snapshot, hresult, hbytes⟩ := run_of_supplies hp ho hd
  refine ⟨snapshot, ?_, hbytes, ?_, ?_⟩
  · rw [perform_of_asksConnections hs, Exchange.map, hresult]
    rfl
  · rw [hbytes]
    exact Snapshot.filled_prefix_iff data
  · intro driver' data' ho' hd' hfilled
    have hs' : Step.AsksConnections { s with driver := driver' } := hs
    have hrun := run_eq_of_filled_eq hp ho' hd' ho hd (hfilled.trans hbytes)
    rw [perform_of_asksConnections hs, perform_of_asksConnections hs', hrun]

/-- Under a limit, asked by a name in capitals: one counter is supplied and half of the next. -/
theorem short_reply_filled_up_under_limit :
    let t : Transport := ⟨[Path.slash], some (.ofMilliseconds 50)⟩
    let s : Step := ⟨Utf8.encode "/m", ⟨fun _ => none, fun _ _ => .reply 0 [3, 0, 0, 0, 7, 1]⟩,
      .execute " SHOW_Connections"⟩
    s.AsksConnections ∧ resolveMount t.cwd s.mount = .ok s.mount ∧
      s.driver.opening s.mount = none ∧
      Supplies t.limit s.driver.connectionsAnswer [3, 0, 0, 0, 7, 1] ∧
      ∃ snapshot, (t.perform s).result = .ok (.outcome (.connections snapshot)) ∧
        snapshot.toBytes = [3, 0, 0, 0, 7, 1] ++ List.replicate 14 0 := by
  intro t s
  have hs : s.AsksConnections := .inr ⟨_, rfl, by decide⟩
  have hp : resolveMount t.cwd s.mount = .ok s.mount := by decide
  obtain ⟨snapshot, hresult, hbytes, -⟩ :=
    short_reply_filled_up (t := t) hs hp rfl Supplies.replied
  exact ⟨hs, hp, rfl, .replied, snapshot, hresult, hbytes⟩

/-- Four bytes with status 0 are taken for a snapshot, whose other four counters the driver never
supplied: with a limit or without, asked by name or directly. The program reports it and
succeeds. -/
theorem four_bytes_taken_for_snapshot :
    let driver : Driver := ⟨fun _ => none, fun _ _ => .reply 0 [3, 0, 0, 0]⟩
    let mount := Utf8.encode "/m"
    let l : Launch :=
      { arguments := [Utf8.encode "show_connections", mount]
        environment := []
        cwd := [Path.slash]
        files := ⟨[([Utf8.encode "m"], .directory)]⟩
        answer := driver.answer
        output := .unbounded }
    (∀ limit ∈ [none, some (Duration.ofMilliseconds 50)],
      ∀ action ∈ [Action.execute "show_connections", .run .showConnections],
        ((Transport.mk [Path.slash] limit).perform ⟨mount, driver, action⟩).result =
            .ok (.outcome (.connections ⟨3, 0, 0, 0, 0⟩)) ∧
          ((Transport.mk [Path.slash] limit).perform ⟨mount, driver, action⟩).result ≠
            .error (.failure (.malformedReply .showConnections (.replySize 20 4)))) ∧
      l.run.exitCode = 0 := by
  decide

end Transport

end MountControl
