import MountControl.Proofs.SettingEntries

namespace MountControl

namespace KeyPath

def CountsBack : KeyPath → Prop
  | key _ => False
  | entry parent _ => parent.CountsBack
  | element parent index => parent.CountsBack ∨ index < 0

instance : DecidablePred CountsBack
  | key _ => .isFalse id
  | entry parent _ => instDecidablePredCountsBack parent
  | element parent index =>
    have := instDecidablePredCountsBack parent
    inferInstanceAs (Decidable (parent.CountsBack ∨ index < 0))

theorem exists_changeElement {index : Int} (hindex : 0 ≤ index)
    {f : SettingValue → Except IndexUnderflow SettingValue} (hf : ∀ v, ∃ v', f v = .ok v')
    (v : SettingValue) : ∃ v', changeElement index f v = .ok v' := by
  have hplace (length : Nat) : place index length = .ok index.toNat := if_pos hindex
  unfold changeElement
  split
  rename_i items origin _
  let padded := items ++ List.replicate (index.toNat + 1 - items.length) SettingValue.nil
  obtain ⟨v', hv'⟩ := hf (padded.getD index.toNat .nil)
  refine ⟨.list (padded.set index.toNat v') origin, ?_⟩
  rw [hplace]
  change (f (padded.getD index.toNat .nil)).bind _ = _
  rw [hv']
  rfl

theorem exists_changeEntry {name : String} {f : SettingValue → Except IndexUnderflow SettingValue}
    (hf : ∀ v, ∃ v', f v = .ok v') (v : SettingValue) : ∃ v', changeEntry name f v = .ok v' := by
  obtain ⟨v', hv'⟩ := hf ((v.entries.lookup (lower name)).getD .nil)
  refine ⟨.table (SettingValue.put (lower name) v' v.entries), ?_⟩
  change (f ((v.entries.lookup (lower name)).getD .nil)).bind _ = _
  rw [hv']
  rfl

/-- A path that does not count back can always be followed. -/
theorem exists_change {path : KeyPath} (hpath : ¬ path.CountsBack)
    {f : SettingValue → Except IndexUnderflow SettingValue} (hf : ∀ v, ∃ v', f v = .ok v')
    (v : SettingValue) : ∃ v', path.change f v = .ok v' := by
  induction path generalizing f with
  | key name => exact exists_changeEntry hf v
  | entry parent name ih => exact ih hpath (exists_changeEntry hf)
  | element parent index ih =>
    obtain ⟨hparent, hindex⟩ := not_or.mp hpath
    exact ih hparent (exists_changeElement (Int.not_lt.mp hindex) hf)

/-- Only an index that counts back can keep a value from being written. -/
theorem exists_assign {path : KeyPath} (hpath : ¬ path.CountsBack) (value root : SettingValue) :
    ∃ root', path.assign value root = .ok root' := by
  cases path with
  | key name => exact ⟨_, rfl⟩
  | entry parent name =>
    have hparent : ¬ parent.CountsBack := hpath
    exact exists_change hparent (fun v => ⟨SettingValue.insert name value v, rfl⟩) root
  | element parent index =>
    obtain ⟨hparent, hindex⟩ := not_or.mp hpath
    exact exists_change hparent
      (exists_changeElement (Int.not_lt.mp hindex) fun v => ⟨_, rfl⟩) root

end KeyPath

namespace SettingValue

theorem filter_put (p : String → Bool) (key : String) (value : SettingValue) (es : Entries) :
    (put key value es).filter (p ·.1) =
      if p key then put key value (es.filter (p ·.1)) else es.filter (p ·.1) := by
  induction es with
  | nil =>
    rw [put, List.filter_cons]
    rfl
  | cons e es ih =>
    obtain ⟨k, old⟩ := e
    rw [put]
    by_cases hk : k = key
    · subst hk
      rw [if_pos rfl, List.filter_cons, List.filter_cons]
      by_cases hp : p k
      · simp only [hp, if_true, put]
      · simp only [hp, if_false, Bool.false_eq_true]
    · rw [if_neg hk, List.filter_cons, List.filter_cons, ih]
      by_cases hp : p k
      · by_cases hkey : p key
        · simp only [hp, hkey, if_true, put, if_neg hk]
        · simp only [hp, hkey, if_true, if_false, Bool.false_eq_true]
      · simp only [hp, if_false, Bool.false_eq_true]

/-- The value of a key is found among the entries that are kept. -/
theorem lookup_filter (p : String → Bool) {key : String} (hkey : p key = true) (es : Entries) :
    (es.filter (p ·.1)).lookup key = es.lookup key := by
  induction es with
  | nil => rfl
  | cons e es ih =>
    rw [List.filter_cons, List.lookup_cons]
    by_cases he : key = e.1
    · subst he
      rw [if_pos hkey, List.lookup_cons, beq_self_eq_true]
    · rw [beq_false_of_ne he]
      split
      · rw [List.lookup_cons, beq_false_of_ne he, ih]
      · exact ih

end SettingValue

namespace Settings

open SettingValue (Entries)

def SameBut (keys : List String) (root root' : SettingValue) : Prop :=
  root.entries.filter (·.1 ∉ keys) = root'.entries.filter (·.1 ∉ keys)

def apartFrom (keys : List String) (es : Entries) : Entries :=
  es.filter fun e => target e ∉ keys

variable {keys : List String} {es : Entries} {root root' next next' : SettingValue}

theorem mem_apartFrom_iff {e : String × SettingValue} :
    e ∈ apartFrom keys es ↔ e ∈ es ∧ target e ∉ keys := by
  rw [apartFrom, List.mem_filter, decide_eq_true_eq]

/-- A setting is found among the entries that are kept, unless something of its name is left out. -/
theorem lookup_apartFrom {n : SettingName} (hn : n.text ∉ keys) (es : Entries) :
    (apartFrom keys es).lookup n.text = es.lookup n.text := by
  apply SettingValue.lookup_filter fun k => lower (KeyPath.ofText k).head ∉ keys
  rw [n.ofText_text, KeyPath.head, n.lower_text]
  exact decide_eq_true hn

theorem SameBut.lookup {k : String} (h : SameBut keys root root') (hk : k ∉ keys) :
    root.entries.lookup k = root'.entries.lookup k := by
  have hfound (v : SettingValue) :
      (v.entries.filter (·.1 ∉ keys)).lookup k = v.entries.lookup k :=
    SettingValue.lookup_filter (· ∉ keys) (decide_eq_true hk) v.entries
  rw [← hfound, h, hfound]

/-- Assigning to one of the keys leaves the others as they were. -/
theorem sameBut_of_assign {e : String × SettingValue} (he : target e ∈ keys)
    (h : (KeyPath.ofText e.1).assign e.2 root = .ok next) (hsame : SameBut keys root root') :
    SameBut keys next root' := by
  obtain ⟨v, hv⟩ := KeyPath.entries_assign h
  have hput := SettingValue.filter_put (· ∉ keys) (target e) v root.entries
  rw [if_neg (by simpa using he)] at hput
  rw [SameBut, hv, ← hsame]
  exact hput

/-- An entry under none of the keys does the same to both tables. -/
theorem assign_congr {e : String × SettingValue} (he : target e ∉ keys)
    (hsame : SameBut keys root root') :
    (∃ fault, (KeyPath.ofText e.1).assign e.2 root = .error fault ∧
        (KeyPath.ofText e.1).assign e.2 root' = .error fault) ∨
      ∃ next next', (KeyPath.ofText e.1).assign e.2 root = .ok next ∧
        (KeyPath.ofText e.1).assign e.2 root' = .ok next' ∧ SameBut keys next next' := by
  have htouches : KeyPath.Touches (target e) ((KeyPath.ofText e.1).assign e.2) :=
    KeyPath.touches_assign _ _
  obtain ⟨g, hg⟩ := htouches
  rw [hg root, hg root', hsame.lookup he]
  cases g (root'.entries.lookup (target e)) with
  | error fault => exact .inl ⟨fault, rfl, rfl⟩
  | ok v =>
    refine .inr ⟨_, _, rfl, rfl, ?_⟩
    have hput (u : SettingValue) : (SettingValue.put (target e) v u.entries).filter (·.1 ∉ keys) =
        SettingValue.put (target e) v (u.entries.filter (·.1 ∉ keys)) :=
      (SettingValue.filter_put (· ∉ keys) _ _ _).trans (if_pos (decide_eq_true he))
    calc (SettingValue.put (target e) v root.entries).filter (·.1 ∉ keys)
      _ = SettingValue.put (target e) v (root.entries.filter (·.1 ∉ keys)) := hput root
      _ = SettingValue.put (target e) v (root'.entries.filter (·.1 ∉ keys)) := by rw [hsame]
      _ = (SettingValue.put (target e) v root'.entries).filter (·.1 ∉ keys) := (hput root').symm

/-- What the entries under some keys write stays under these. -/
theorem overlay_apartFrom_of_ok (hsame : SameBut keys root root') (h : overlay es root = .ok next) :
    ∃ next', overlay (apartFrom keys es) root' = .ok next' ∧ SameBut keys next next' := by
  -- over both tables at once: an entry that is left out keeps them the same but under the keys
  induction es generalizing root root' with
  | nil =>
    cases h
    exact ⟨root', rfl, hsame⟩
  | cons e es ih =>
    obtain ⟨mid, hassign, hrest⟩ := overlay_cons h
    by_cases he : target e ∈ keys
    · have hskip : apartFrom keys (e :: es) = apartFrom keys es :=
        List.filter_cons_of_neg (by simpa using he)
      rw [hskip]
      exact ih (sameBut_of_assign he hassign hsame) hrest
    · have hkeep : apartFrom keys (e :: es) = e :: apartFrom keys es :=
        List.filter_cons_of_pos (by simpa using he)
      rw [hkeep, overlay_cons_eq]
      rcases assign_congr he hsame with ⟨fault, hroot, -⟩ | ⟨mid', mid'', hroot, hroot', hmid⟩
      · cases hassign.symm.trans hroot
      · cases hassign.symm.trans hroot
        rw [hroot']
        exact ih hmid hrest

/-- Where entries cannot be written, those apart from some keys cannot either, or one under these
keys counts back. -/
theorem overlay_apartFrom_of_error {fault : SettingsFault} (hsame : SameBut keys root root')
    (h : overlay es root = .error fault) :
    (∃ fault', overlay (apartFrom keys es) root' = .error fault') ∨
      ∃ e ∈ es, target e ∈ keys ∧ (KeyPath.ofText e.1).CountsBack := by
  induction es generalizing root root' with
  | nil => cases h
  | cons e es ih =>
    have hlater (hes : (∃ e ∈ es, target e ∈ keys ∧ (KeyPath.ofText e.1).CountsBack)) :
        ∃ e' ∈ e :: es, target e' ∈ keys ∧ (KeyPath.ofText e'.1).CountsBack := by
      obtain ⟨e', hmem, he'⟩ := hes
      exact ⟨e', List.mem_cons_of_mem _ hmem, he'⟩
    rw [overlay_cons_eq] at h
    by_cases he : target e ∈ keys
    · have hskip : apartFrom keys (e :: es) = apartFrom keys es :=
        List.filter_cons_of_neg (by simpa using he)
      rw [hskip]
      by_cases hback : (KeyPath.ofText e.1).CountsBack
      · exact .inr ⟨e, List.mem_cons_self, he, hback⟩
      · obtain ⟨mid, hassign⟩ := KeyPath.exists_assign hback e.2 root
        rw [hassign] at h
        exact (ih (sameBut_of_assign he hassign hsame) h).imp_right hlater
    · have hkeep : apartFrom keys (e :: es) = e :: apartFrom keys es :=
        List.filter_cons_of_pos (by simpa using he)
      rw [hkeep, overlay_cons_eq]
      rcases assign_congr he hsame with ⟨u, -, hroot'⟩ | ⟨mid, mid', hroot, hroot', hmid⟩
      · rw [hroot']
        exact .inl ⟨_, rfl⟩
      · rw [hroot] at h
        rw [hroot']
        exact (ih hmid h).imp_right hlater

theorem overlay_error {fault : SettingsFault} (h : overlay es root = .error fault) :
    ∃ u, fault = .underflow u := by
  induction es generalizing root with
  | nil => cases h
  | cons e es ih =>
    rw [overlay_cons_eq] at h
    cases hassign : (KeyPath.ofText e.1).assign e.2 root with
    | ok next =>
      rw [hassign] at h
      exact ih h
    | error u =>
      rw [hassign] at h
      cases h
      exact ⟨u, rfl⟩

/-- Entries can be written over a table if those apart from some keys can over one that is the same
but under these, and none under them counts back. -/
theorem exists_overlay_of_apartFrom (hsame : SameBut keys root root')
    (hforward : ∀ e ∈ es, target e ∈ keys → ¬ (KeyPath.ofText e.1).CountsBack)
    (h : overlay (apartFrom keys es) root' = .ok next') :
    ∃ next, overlay es root = .ok next ∧ SameBut keys next next' := by
  cases hnext : overlay es root with
  | ok next =>
    obtain ⟨core, hcore, hnextCore⟩ := overlay_apartFrom_of_ok hsame hnext
    cases h.symm.trans hcore
    exact ⟨next, rfl, hnextCore⟩
  | error fault =>
    rcases overlay_apartFrom_of_error hsame hnext with ⟨fault', hfault⟩ | ⟨e, he, htarget, hback⟩
    · cases h.symm.trans hfault
    · exact absurd hback (hforward e he htarget)

end Settings

end MountControl
