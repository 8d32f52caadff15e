import MountControl.Proofs.WholeReports

namespace MountControl

section LastMark

variable {α : Type} {mark : α} {before before' between after after' : List α}

theorem eq_nil_of_last_mark (h : mark ∉ after) (heq : mark :: after = between ++ mark :: after') :
    between = [] := by
  cases between with
  | nil => rfl
  | cons a between =>
    have hafter : after = between ++ mark :: after' := (List.cons.inj heq).2
    rw [hafter] at h
    exact absurd (List.mem_append_right between List.mem_cons_self) h

/-- Where a mark comes for the last time, a list is parted in one way only. -/
theorem append_cons_inj_of_last (h : mark ∉ after) (h' : mark ∉ after')
    (heq : before ++ mark :: after = before' ++ mark :: after') :
    before = before' ∧ after = after' := by
  have hbefore : before = before' := by
    have hcases := List.append_eq_append_iff.mp heq
    rcases hcases with ⟨between, hlonger, hrest⟩ | ⟨between, hlonger, hrest⟩
    · rw [hlonger, eq_nil_of_last_mark h hrest, List.append_nil]
    · rw [hlonger, eq_nil_of_last_mark h' hrest, List.append_nil]
  rw [hbefore] at heq
  have hafter := List.append_cancel_left heq
  exact ⟨hbefore, (List.cons.inj hafter).2⟩

end LastMark

theorem toDigits_injective {n n' : Nat} (h : Nat.toDigits 10 n = Nat.toDigits 10 n') : n = n' := by
  calc n = Nat.ofDigitChars 10 (Nat.toDigits 10 n) 0 := Nat.ofDigitChars_ten_toDigits.symm
    _ = n' := by rw [h, Nat.ofDigitChars_ten_toDigits]

theorem Utf8.encode_injective {s s' : String} (h : encode s = encode s') : s = s' := by
  have hread := congrArg decode? h
  rw [decode?_encode, decode?_encode] at hread
  exact Option.some.inj hread

namespace PoolCounter

variable {c : PoolCounter} {before before' : List Char} {n n' : Nat}

def line (c : PoolCounter) (n : Nat) : List Char :=
  (c.caption ++ ": " ++ toString n ++ "\n").toList

theorem line_eq (c : PoolCounter) (n : Nat) :
    c.line n = (c.caption ++ ":").toList ++ ' ' :: (Nat.toDigits 10 n ++ ['\n']) := by
  simp [line]

theorem blank_notMem_digits (n : Nat) : ' ' ∉ Nat.toDigits 10 n ++ ['\n'] := by
  intro hmem
  rcases List.mem_append.mp hmem with hdigit | hbreak
  · exact absurd (Json.isDigit_of_mem_decimal hdigit) (by decide)
  · exact absurd hbreak (by decide)

/-- A line of a counter is told from what comes before it, as its number follows the last blank. -/
theorem append_line_inj (h : before ++ c.line n = before' ++ c.line n') :
    before = before' ∧ n = n' := by
  rw [line_eq, line_eq, ← List.append_assoc, ← List.append_assoc] at h
  obtain ⟨hbefore, hdigits⟩ :=
    append_cons_inj_of_last (blank_notMem_digits n) (blank_notMem_digits n') h
  exact ⟨List.append_cancel_right hbefore, toDigits_injective (List.append_cancel_right hdigits)⟩

/-- Lines that give some counters one after the other tell what stands before them and the value of
each. -/
theorem append_lines_inj {value value' : PoolCounter → Nat} (cs : List PoolCounter)
    (h : before ++ cs.flatMap (fun c => c.line (value c)) =
      before' ++ cs.flatMap (fun c => c.line (value' c))) :
    before = before' ∧ ∀ c ∈ cs, value c = value' c := by
  -- the last line is read first: until the others are read, the first one is a part of `before`
  induction cs generalizing before before' with
  | nil => exact ⟨List.append_cancel_right h, fun c hc => absurd hc List.not_mem_nil⟩
  | cons c cs ih =>
    rw [List.flatMap_cons, List.flatMap_cons, ← List.append_assoc, ← List.append_assoc] at h
    obtain ⟨hline, hvalues⟩ := ih h
    obtain ⟨hbefore, hvalue⟩ := append_line_inj hline
    exact ⟨hbefore, List.forall_mem_cons.mpr ⟨hvalue, hvalues⟩⟩

end PoolCounter

namespace Operation

/-- The titles of the operations differ in their first letter. -/
theorem title_begins : ∀ op op' : Operation, op.title.toList.head? = op'.title.toList.head? →
    op = op' := by
  intro op op'
  cases op <;> cases op' <;> decide

/-- Titles begin differently, so a title tells the operation whatever follows it. -/
theorem eq_of_title_append {op op' : Operation} {rest rest' : List Char}
    (h : op.title.toList ++ rest = op'.title.toList ++ rest') : op = op' := by
  have hfirst (op : Operation) (rest : List Char) :
      (op.title.toList ++ rest).head? = op.title.toList.head? := by
    cases op <;> rfl
  apply title_begins
  rw [← hfirst op rest, ← hfirst op' rest', h]

end Operation

namespace Report

variable {r r' : Report} {s s' : Snapshot}

def heading (r : Report) : List Char :=
  r.operation.title.toList ++ (": ".toList ++ (r.mount.display.toList ++ ['\n']))

def tally (s : Snapshot) : List Char :=
  PoolCounter.all.flatMap fun c => c.line (s.get c).toNat

theorem toList_plainLines (r : Report) :
    (String.join (r.plainLines.map (· ++ "\n"))).toList =
      r.heading ++ (r.connections.map tally).getD [] ++ "Done!\n".toList := by
  cases hr : r.connections with
  | none => simp [plainLines, heading, hr]
  | some s =>
    simp [plainLines, heading, tally, PoolCounter.line, hr, List.flatMap_map, Function.comp_def]

theorem accepted_text (r : Report) : (r.write .text Sink.unbounded).accepted =
    Utf8.encode (String.join (r.plainLines.map (· ++ "\n"))) :=
  congrArg Written.accepted (write_unbounded_of_whole rfl)

theorem display_eq_of_heading (h : r.heading = r'.heading) :
    r.mount.display = r'.mount.display := by
  have hoperation : r.operation = r'.operation := Operation.eq_of_title_append h
  rw [heading, heading, hoperation] at h
  have hmount := List.append_cancel_right (List.append_cancel_left (List.append_cancel_left h))
  exact String.toList_injective hmount

/-- Heading and counters are told apart, counter by counter from the end. -/
theorem heading_tally_inj (h : r.heading ++ tally s = r'.heading ++ tally s') :
    r.heading = r'.heading ∧ s = s' := by
  obtain ⟨hheading, hvalues⟩ := PoolCounter.append_lines_inj PoolCounter.all h
  exact ⟨hheading, Snapshot.eq_of_counters hvalues⟩

/-- Plain reports of outcomes are the same bytes just if they tell of the same operation, of mounts
that are displayed alike, and of the same counters. -/
theorem plain_reports_agree_iff (outcome outcome' : Outcome) (path path' : Path) :
    let r := ofOutcome outcome path
    let r' := ofOutcome outcome' path'
    (r.write .text Sink.unbounded).accepted = (r'.write .text Sink.unbounded).accepted ↔
      r.operation = r'.operation ∧ r.mount.display = r'.mount.display ∧
        r.connections = r'.connections := by
  intro r r'
  rw [accepted_text, accepted_text]
  constructor
  · intro h
    have hchars := congrArg String.toList (Utf8.encode_injective h)
    rw [toList_plainLines, toList_plainLines] at hchars
    have hbody := List.append_cancel_right hchars
    -- the counters are there or not as the operation says, and that is told by the front
    have hoperation : r.operation = r'.operation := by
      apply Operation.eq_of_title_append
      simpa only [heading, List.append_assoc] using hbody
    cases outcome with
    | cacheReset =>
      cases outcome' with
      | cacheReset =>
        have hheading : r.heading = r'.heading := List.append_cancel_right hbody
        exact ⟨hoperation, display_eq_of_heading hheading, rfl⟩
      | connections s' => cases hoperation
    | connections s =>
      cases outcome' with
      | cacheReset => cases hoperation
      | connections s' =>
        obtain ⟨hheading, hs⟩ : r.heading = r'.heading ∧ s = s' := heading_tally_inj hbody
        exact ⟨hoperation, display_eq_of_heading hheading, congrArg some hs⟩
  · rintro ⟨hoperation, hdisplay, hconnections⟩
    rw [plainLines, plainLines, hoperation, hdisplay, hconnections]

end Report

end MountControl
