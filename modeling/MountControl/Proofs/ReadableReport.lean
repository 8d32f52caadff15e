import MountControl.Proofs.JsonObjects
import MountControl.Proofs.NameTables
import MountControl.Proofs.Utf8Text
import MountControl.Report.Basic

namespace MountControl

theorem Operation.reads_toJson (op : Operation) : Json.Reads fromJson op.toJson.toList op :=
  Json.readName_quote (lookup_byName_iff.mpr rfl)

namespace Snapshot

theorem reads_counter (w : UInt32) : Json.Reads
    (fun cs => (Json.readWord 0xFFFFFFFF cs).map fun (n, rest) => (UInt32.ofNat n, rest))
    (toString w.toNat).toList w := by
  intro rest hrest
  have hbound : w.toNat ≤ 0xFFFFFFFF := Nat.le_of_lt_succ w.toNat_lt
  dsimp only
  rw [Json.reads_toString (by decide) hbound rest hrest]
  exact congrArg (fun w => Except.ok (w, rest)) UInt32.ofNat_toNat

/-- The counters are read back from their object. -/
theorem reads_toJson (s : Snapshot) : Json.Reads fromJson s.toJson.toList s := by
  have hnames : ∀ c ∈ PoolCounter.all, PoolCounter.byName.lookup c.name = some c :=
    fun c _ => c.lookup_byName
  have hrecord := Json.readRecord_object hnames (fun c _ => reads_counter (s.get c)) (by decide)
  intro rest hrest
  rw [fromJson]
  simp only [toJson, hrecord rest hrest, bind, Except.bind]
  rfl

theorem skipped_toJson (s : Snapshot) : Json.Skipped s.toJson.toList := by
  apply Json.skipped_object
  intro m hm
  obtain ⟨c, -, rfl⟩ := List.mem_map.mp hm
  exact Json.skipped_toString _

theorem printable_toJson (s : Snapshot) : Json.Printable s.toJson := by
  apply Json.printable_object
  intro m hm
  obtain ⟨c, -, rfl⟩ := List.mem_map.mp hm
  exact Json.printable_toString _

end Snapshot

namespace Sink

/-- A sink that takes everything takes the pieces one after the other. -/
theorem unbounded_write (atEnd : Option WriteFault) (pieces : List Bytes) :
    unbounded.write atEnd pieces = ⟨pieces.flatten, atEnd⟩ := by
  induction pieces with
  | nil => rfl
  | cons piece pieces ih =>
    have hfits : unbounded.fits piece.length = true := rfl
    have hafter : unbounded.after piece.length = unbounded := rfl
    rw [write, if_pos hfits, hafter, ih]
    rfl

end Sink

namespace Report

def members (r : Report) (mount : String) : List (String × String) :=
  ("command", r.operation.toJson) :: ("mount", Json.quote mount) ::
    (r.connections.map fun s => ("connections", s.toJson)).toList

theorem skipped_of_mem_members {r : Report} {mount : String} {m : String × String}
    (hm : m ∈ r.members mount) : Json.Skipped m.2.toList := by
  rcases List.mem_cons.mp hm with rfl | hm
  · exact Json.skipped_quote _
  rcases List.mem_cons.mp hm with rfl | hm
  · exact Json.skipped_quote _
  · obtain ⟨s, -, rfl⟩ := Option.map_eq_some_iff.mp (Option.mem_toList.mp hm)
    exact s.skipped_toJson

def line (r : Report) (mount : String) : String :=
  Json.object (r.members mount)

theorem reads_line (r : Report) (mount : String) :
    Json.Reads Json.readObject (r.line mount).toList (r.members mount) :=
  Json.reads_object fun _ hm => skipped_of_mem_members hm

theorem toList_line (r : Report) (mount : String) : (r.line mount ++ "\n").toList =
    "\x7b\"command\":".toList ++ (r.operation.toJson.toList ++ (",\"mount\":".toList ++
      ((Json.quote mount).toList ++ ((r.connections.map fun s =>
        ",\"connections\":".toList ++ s.toJson.toList).getD [] ++ "\x7d\n".toList)))) := by
  rw [String.toList_append, line, Json.toList_object_append]
  cases hr : r.connections <;> simp [members, hr, Json.membersOnto, Json.escapeChar]

/-- The pieces of a report whose path is text make up its line. -/
theorem json_pieces {r : Report} {mount : String} (h : Utf8.decode? r.mount = some mount) :
    r.json.fault = none ∧
      (r.json.pieces.map Utf8.encode).flatten = Utf8.encode (r.line mount ++ "\n") := by
  rw [Utf8.encode, toList_line, json, h]
  refine ⟨rfl, ?_⟩
  cases hr : r.connections <;> simp [Utf8.encode]

theorem printable_line (r : Report) (mount : String) : Json.Printable (r.line mount) := by
  apply Json.printable_object
  intro m hm
  rcases List.mem_cons.mp hm with rfl | hm
  · exact Json.printable_quote _
  rcases List.mem_cons.mp hm with rfl | hm
  · exact Json.printable_quote _
  · obtain ⟨s, -, rfl⟩ := Option.map_eq_some_iff.mp (Option.mem_toList.mp hm)
    exact s.printable_toJson

/-- A line of JSON tells an outcome on a mount if it is an object of just these members, and each
of them is read as what it stands for. -/
inductive Tells (line : String) : Outcome → String → Prop
  | cacheReset {command mountText mount : String}
      (hmembers : Json.readText Json.readObject line =
        .ok [("command", command), ("mount", mountText)])
      (hcommand : Json.readText Operation.fromJson command = .ok .resetCache)
      (hmount : Json.readText Json.readString mountText = .ok mount) :
      Tells line .cacheReset mount
  | connections {command mountText mount counters : String} {s : Snapshot}
      (hmembers : Json.readText Json.readObject line =
        .ok [("command", command), ("mount", mountText), ("connections", counters)])
      (hcommand : Json.readText Operation.fromJson command = .ok .showConnections)
      (hmount : Json.readText Json.readString mountText = .ok mount)
      (hcounters : Json.readText Snapshot.fromJson counters = .ok s) :
      Tells line (.connections s) mount

/-- The line holds the outcome and the mount, and nothing else. -/
theorem line_tells (outcome : Outcome) (path : Path) (mount : String) :
    Tells ((ofOutcome outcome path).line mount ++ "\n") outcome mount := by
  have hmembers := Json.readText_line_of_reads ((ofOutcome outcome path).reads_line mount)
  have hcommand := Json.readText_of_reads (ofOutcome outcome path).operation.reads_toJson
  have hmount := Json.readText_of_reads (Json.reads_quote mount)
  cases outcome with
  | cacheReset => exact .cacheReset hmembers hcommand hmount
  | connections s =>
    exact .connections hmembers hcommand hmount (Json.readText_of_reads s.reads_toJson)

/-- A report in JSON on a mount that is a text is written as one line, and the line tells what was
reported. -/
theorem write_json_tells {path : Path} {mount : String} (hmount : Utf8.decode? path = some mount)
    (outcome : Outcome) :
    ∃ body line, (ofOutcome outcome path).write .json Sink.unbounded = ⟨body ++ [0x0A], none⟩ ∧
      (∀ b ∈ body, 0x20 ≤ b) ∧ Utf8.decode? (body ++ [0x0A]) = some line ∧
      Tells line outcome mount := by
  let r := ofOutcome outcome path
  obtain ⟨hfault, hpieces⟩ : r.json.fault = none ∧ _ := json_pieces hmount
  have hbytes : Utf8.encode (r.line mount ++ "\n") = Utf8.encode (r.line mount) ++ [0x0A] :=
    Utf8.encode_append _ _
  -- the newline is the only character that no member of the object accounts for
  refine ⟨Utf8.encode (r.line mount), r.line mount ++ "\n", ?_, ?_, ?_, ?_⟩
  · rw [write, Sink.unbounded_write, ← hbytes]
    exact congrArg₂ Written.mk hpieces hfault
  · intro b hb
    exact Utf8.le_of_mem_encode (r.printable_line mount) hb
  · rw [← hbytes, Utf8.decode?_encode]
  · exact line_tells outcome path mount

/-- The mount's name has a quote, a backslash, a line break, another control character and letters
of two and of four bytes. -/
theorem write_json_tells_awkward_mount :
    let mount := "/mnt/\"a\\\n\x1bé😀"
    let outcome := Outcome.connections ⟨0, 1, 20, 4294967295, 300⟩
    Utf8.decode? (Utf8.encode mount) = some mount ∧
      ∃ body line, (ofOutcome outcome (Utf8.encode mount)).write .json Sink.unbounded =
          ⟨body ++ [0x0A], none⟩ ∧
        (∀ b ∈ body, 0x20 ≤ b) ∧ Utf8.decode? (body ++ [0x0A]) = some line ∧
        Tells line outcome mount := by
  intro mount outcome
  have hmount : Utf8.decode? (Utf8.encode mount) = some mount := by decide
  exact ⟨hmount, write_json_tells hmount outcome⟩

end Report

end MountControl
