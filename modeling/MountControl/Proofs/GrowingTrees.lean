import MountControl.Files.Tree

namespace MountControl.FileTree

variable {t t' t'' : FileTree} {loc : Location} {node : FileNode} {cwd : Location} {p : Path}

def file? (t : FileTree) (loc : Location) : Option Bytes :=
  match t.get? loc with
  | some (.file content) => some content
  | _ => none

theorem file?_eq_some_iff {content : Bytes} :
    t.file? loc = some content ↔ t.get? loc = some (.file content) := by
  unfold file?
  cases t.get? loc with
  | none => simp
  | some node => cases node <;> simp

theorem lookup_filter_ne (entries : List (Location × FileNode)) {other : Location}
    (h : other ≠ loc) : (entries.filter (·.1 ≠ loc)).lookup other = entries.lookup other := by
  induction entries with
  | nil => rfl
  | cons e entries ih =>
    obtain ⟨key, old⟩ := e
    by_cases hkey : key = loc
    · have hne : other ≠ key := fun heq => h (heq.trans hkey)
      rw [List.filter_cons_of_neg (by simp [hkey]), ih, List.lookup_cons, beq_false_of_ne hne]
    · rw [List.filter_cons_of_pos (by simp [hkey]), List.lookup_cons, List.lookup_cons, ih]

theorem get?_insert_self (h : loc ≠ []) : (t.insert loc node).get? loc = some node := by
  rw [get?, if_neg h, insert, List.lookup_cons, beq_self_eq_true]

theorem get?_insert_of_ne {other : Location} (h : other ≠ loc) :
    (t.insert loc node).get? other = t.get? other := by
  unfold get? insert
  dsimp only
  rw [List.lookup_cons, beq_false_of_ne h]
  exact congrArg (ite (other = []) _) (lookup_filter_ne t.entries h)

structure Grows (t t' : FileTree) : Prop where
  kept : ∀ loc node, t.get? loc = some node → t'.get? loc = some node
  added : ∀ loc node, t.get? loc = none → t'.get? loc = some node →
    node = .directory ∨ node = .file []

theorem Grows.refl (t : FileTree) : Grows t t where
  kept _ _ h := h
  added _ _ hnone hsome := absurd (hnone.symm.trans hsome) nofun

/-- What was empty when it was added has stayed so. -/
theorem Grows.trans (h : Grows t t') (h' : Grows t' t'') : Grows t t'' where
  kept loc node hnode := h'.kept loc node (h.kept loc node hnode)
  added loc node hnone hnode := by
    cases hmid : t'.get? loc with
    | none => exact h'.added loc node hmid hnode
    | some old =>
      have hold := h'.kept loc old hmid
      cases hold.symm.trans hnode
      exact h.added loc node hnone hmid

/-- A directory or an empty file may be put where there was nothing. -/
theorem Grows.insert (hfree : t.get? loc = none) (hnode : node = .directory ∨ node = .file []) :
    Grows t (t.insert loc node) where
  kept other old hold := by
    have hne : other ≠ loc := by
      rintro rfl
      exact absurd (hfree.symm.trans hold) nofun
    rwa [get?_insert_of_ne hne]
  added other new hnone hnew := by
    by_cases hother : other = loc
    · subst hother
      have hroot : other ≠ [] := by
        rintro rfl
        exact absurd hfree nofun
      rw [get?_insert_self hroot] at hnew
      exact Option.some.inj hnew ▸ hnode
    · rw [get?_insert_of_ne hother] at hnew
      exact absurd (hnone.symm.trans hnew) nofun

theorem Grows.file?_of_some (h : Grows t t') {content : Bytes}
    (hfile : t.file? loc = some content) :
    t'.file? loc = some content :=
  file?_eq_some_iff.mpr (h.kept _ _ (file?_eq_some_iff.mp hfile))

/-- A file that is new is empty. -/
theorem Grows.file?_of_none (h : Grows t t') {content : Bytes} (hnone : t.file? loc = none)
    (hfile : t'.file? loc = some content) : content = [] := by
  have hget := file?_eq_some_iff.mp hfile
  cases hold : t.get? loc with
  | none =>
    rcases h.added _ _ hold hget with hdir | hempty
    · cases hdir
    · exact FileNode.file.inj hempty
  | some old =>
    cases (h.kept _ _ hold).symm.trans hget
    cases hnone.symm.trans (file?_eq_some_iff.mpr hold)

def Fits (t : FileTree) : Target → Prop
  | .found loc node => node = .directory ∨ t.get? loc = some node
  | .vacant loc => t.get? loc = none

theorem fits_of_walkToLink {follow : Bool} {dir : Location} {steps : List Bytes} {target : Target}
    (h : t.walkToLink follow dir steps = .ok (.ended target)) : t.Fits target := by
  induction steps generalizing dir with
  | nil =>
    cases h
    cases hdir : t.get? dir with
    | none => exact .inl rfl
    | some node => exact .inr hdir
  | cons name rest ih =>
    unfold walkToLink at h
    split at h
    · exact ih h
    split at h
    · exact ih h
    split at h
    · cases h
    dsimp only at h
    -- the next place is free, a directory to walk on from, a file or a link
    cases hnext : t.get? (dir ++ [name]) with
    | none =>
      rw [hnext] at h
      dsimp only at h
      split at h
      · cases h
        exact hnext
      · cases h
    | some node =>
      rw [hnext] at h
      cases node with
      | directory => exact ih h
      | file content =>
        dsimp only at h
        split at h
        · cases h
          exact .inr hnext
        · cases h
      | link link =>
        dsimp only at h
        split at h
        · cases h
          exact .inr hnext
        · cases h

/-- A walk ends at what is there, or at a place where nothing is. -/
theorem fits_of_walk {follow : Bool} {links : Nat} {dir : Location} {steps : List Bytes}
    {target : Target} (h : t.walk follow links dir steps = .ok target) : t.Fits target := by
  -- on the number of links that may still be passed
  induction links generalizing dir steps with
  | zero =>
    unfold walk at h
    rcases hstage : t.walkToLink follow dir steps with e | (⟨end_⟩ | ⟨dir', rest⟩)
    · rw [hstage] at h
      cases h
    · rw [hstage] at h
      cases h
      exact fits_of_walkToLink hstage
    · rw [hstage] at h
      cases h
  | succ links ih =>
    unfold walk at h
    rcases hstage : t.walkToLink follow dir steps with e | (⟨end_⟩ | ⟨dir', rest⟩)
    · rw [hstage] at h
      cases h
    · rw [hstage] at h
      cases h
      exact fits_of_walkToLink hstage
    · rw [hstage] at h
      exact ih h

theorem fits_of_locate {follow : Bool} {target : Target}
    (h : t.locate cwd follow p = .ok target) : t.Fits target := by
  unfold locate at h
  split at h
  · cases h
  split at h
  · cases h
  dsimp only at h
  split at h
  · rename_i hwalk
    split at h
    · cases h
    · cases h
      exact fits_of_walk hwalk
  · exact fits_of_walk h

/-- One directory is made where there was nothing. -/
theorem grows_makeDirectory (h : t.makeDirectory cwd p = .ok t') : Grows t t' := by
  unfold makeDirectory at h
  split at h
  · cases h
  split at h
  · rename_i hlocate
    cases h
    exact Grows.insert (fits_of_locate hlocate) (.inl rfl)
  · cases h
  · cases h

theorem grows_ensureDirectory (t : FileTree) (cwd : Location) (p : Path) :
    Grows t (t.ensureDirectory cwd p).1 := by
  unfold ensureDirectory
  cases hmade : t.makeDirectory cwd p with
  | ok made => exact grows_makeDirectory hmade
  | error e => exact Grows.refl t

/-- Making the directories down to a path only adds to the tree, wherever it stops. -/
theorem grows_makeDirectories (t : FileTree) (cwd : Location) (fuel : Nat) (p : Path) :
    Grows t (t.makeDirectories cwd fuel p).1 := by
  induction fuel generalizing p with
  | zero => exact Grows.refl t
  | succ fuel ih =>
    unfold makeDirectories
    split
    · exact Grows.refl t
    split
    · split
      · split
        · rename_i above _
          have habove := ih above
          -- what is made above stays, whether or not all of it could be made
          rcases hmade : t.makeDirectories cwd fuel above with ⟨made, e | ⟨⟩⟩
          · rw [hmade] at habove
            exact habove
          · rw [hmade] at habove
            exact habove.trans (grows_ensureDirectory made cwd p)
        · exact Grows.refl t
      · exact grows_ensureDirectory t cwd p
    · exact grows_ensureDirectory t cwd p

/-- A file that was opened for appending is there, and nothing else has changed. -/
theorem grows_openForAppending (h : t.openForAppending cwd p = .ok (t', loc)) :
    Grows t t' ∧ ∃ content, t'.file? loc = some content := by
  unfold openForAppending at h
  split at h
  · cases h
  split at h
  · split at h <;> cases h
  split at h
  · rename_i hlocate
    cases h
    have hfree : t.get? loc = none := fits_of_locate hlocate
    have hroot : loc ≠ [] := by
      rintro rfl
      exact absurd hfree nofun
    exact ⟨Grows.insert hfree (.inr rfl), [], file?_eq_some_iff.mpr (get?_insert_self hroot)⟩
  · rename_i content hlocate
    cases h
    rcases fits_of_locate hlocate with hdir | hfile
    · cases hdir
    · exact ⟨Grows.refl _, content, file?_eq_some_iff.mpr hfile⟩
  · cases h
  · cases h

end MountControl.FileTree
