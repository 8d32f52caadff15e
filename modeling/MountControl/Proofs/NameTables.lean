import MountControl.Request.Operation

namespace MountControl

/-- In a table of choices with different names, a name leads to the choice that bears it. -/
theorem lookup_map_name_iff {α : Type} {name : α → String} (hinj : ∀ a b, name a = name b → a = b)
    (all : List α) (text : String) (a : α) :
    (all.map fun b => (name b, b)).lookup text = some a ↔ a ∈ all ∧ text = name a := by
  induction all with
  | nil => simp
  | cons b all ih =>
    rw [List.map_cons, List.lookup_cons, List.mem_cons]
    by_cases hb : text = name b
    · rw [hb, beq_self_eq_true, Option.some.injEq]
      constructor
      · rintro rfl
        exact ⟨Or.inl rfl, rfl⟩
      · rintro ⟨_, hn⟩
        exact hinj b a hn
    · rw [beq_false_of_ne hb, ih]
      constructor
      · rintro ⟨hm, hn⟩
        exact ⟨Or.inr hm, hn⟩
      · rintro ⟨rfl | hm, hn⟩
        · exact absurd hn hb
        · exact ⟨hm, hn⟩

namespace PoolCounter

theorem mem_all (c : PoolCounter) : c ∈ all := by
  cases c <;> decide

theorem name_injective (a b : PoolCounter) (h : a.name = b.name) : a = b := by
  have hall : ∀ a ∈ all, ∀ b ∈ all, a.name = b.name → a = b := by decide
  exact hall a a.mem_all b b.mem_all h

theorem lookup_byName_iff (text : String) (c : PoolCounter) :
    byName.lookup text = some c ↔ text = c.name := by
  rw [byName, lookup_map_name_iff name_injective]
  exact and_iff_right c.mem_all

theorem lookup_byName (c : PoolCounter) : byName.lookup c.name = some c :=
  (lookup_byName_iff c.name c).mpr rfl

end PoolCounter

/-- The counters are all that a snapshot has. -/
theorem Snapshot.eq_of_counters {s s' : Snapshot}
    (h : ∀ c ∈ PoolCounter.all, (s.get c).toNat = (s'.get c).toNat) : s = s' := by
  have hget (c : PoolCounter) : s.get c = s'.get c := UInt32.toNat_inj.mp (h c c.mem_all)
  obtain ⟨a, b, c, d, e⟩ := s
  congr 1
  · exact hget .inUseShort
  · exact hget .inUseLong
  · exact hget .inUseOneTime
  · exact hget .freeShort
  · exact hget .freeLong

namespace Operation

def NamedBy (op : Operation) (text : String) : Prop :=
  lower (String.ofList (trim text.toList)) = op.name

instance (op : Operation) (text : String) : Decidable (op.NamedBy text) :=
  inferInstanceAs (Decidable (_ = _))

theorem mem_all (op : Operation) : op ∈ all := by
  cases op <;> decide

theorem name_injective (op op' : Operation) (h : op.name = op'.name) : op = op' := by
  have hall : ∀ op ∈ all, ∀ op' ∈ all, op.name = op'.name → op = op' := by decide
  exact hall op op.mem_all op' op'.mem_all h

theorem lookup_byName_iff {text : String} {op : Operation} :
    byName.lookup text = some op ↔ text = op.name := by
  rw [byName, lookup_map_name_iff name_injective]
  exact and_iff_right op.mem_all

theorem ofText_eq_ok_iff {text : String} {op : Operation} :
    ofText text = .ok op ↔ op.NamedBy text := by
  unfold NamedBy ofText
  rw [← lookup_byName_iff]
  cases byName.lookup (lower (String.ofList (trim text.toList))) <;> simp

theorem ofText_error_of_unnamed {text : String} (h : ∀ op : Operation, ¬ op.NamedBy text) :
    ∃ fault, ofText text = .error fault := by
  cases hop : ofText text with
  | error fault => exact ⟨fault, rfl⟩
  | ok op => exact absurd (ofText_eq_ok_iff.mp hop) (h op)

end Operation

end MountControl
