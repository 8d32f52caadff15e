namespace MountControl

abbrev pieces {α : Type} [BEq α] (separator : α) (as : List α) : List (List α) :=
  as.splitOn separator

theorem notMem_of_mem_pieces {α : Type} [BEq α] [LawfulBEq α] {separator : α} {as piece : List α}
    (h : piece ∈ pieces separator as) : separator ∉ piece := by
  induction as generalizing piece with
  | nil =>
    rw [pieces, List.splitOn_nil] at h
    rw [List.mem_singleton.mp h]
    exact List.not_mem_nil
  | cons a as ih =>
    rw [pieces, List.splitOn_cons_eq_if_modifyHead] at h
    split at h
    · rcases List.mem_cons.mp h with rfl | h
      · exact List.not_mem_nil
      · exact ih h
    · rename_i hne
      -- only the first piece grows, and not by a separator
      obtain ⟨first, more, hsplit⟩ := List.exists_cons_of_ne_nil (List.splitOn_ne_nil separator as)
      rw [pieces, hsplit] at ih
      rw [hsplit, List.modifyHead_cons] at h
      rcases List.mem_cons.mp h with rfl | h
      · intro hmem
        rcases List.mem_cons.mp hmem with rfl | hmem
        · exact hne (beq_self_eq_true _)
        · exact ih List.mem_cons_self hmem
      · exact ih (List.mem_cons_of_mem _ h)

end MountControl
