import Mathlib.Data.List.Nodup
import MountControl.Proofs.EntriesApart
import MountControl.Proofs.FallibleSteps

namespace MountControl

open SettingValue (Entries)

namespace HashOrder

def reversed : HashOrder where
  file _ es := es.reverse
  environment es := es.reverse
  copy _ es := es.reverse
  settings es := es.reverse
  file_perm _ es := List.reverse_perm es
  environment_perm es := List.reverse_perm es
  copy_perm _ es := List.reverse_perm es
  settings_perm es := List.reverse_perm es

def reversedCopy : HashOrder :=
  { asListed with
    copy := fun _ es => es.reverse
    copy_perm := fun _ es => List.reverse_perm es }

/-- An order hands out the same entries, with the tables below them arranged. -/
def Arranges (order : HashOrder) (es handed : Entries) : Prop :=
  handed.Perm (es.map fun e => (e.1, SettingValue.arranged order.file [e.1] e.2))

end HashOrder

namespace SettingValue

/-- Values that cannot be told apart where they are read as a setting: of a list only its origin is
looked at, and of a table only its keys. -/
inductive Alike : SettingValue → SettingValue → Prop
  | refl (v : SettingValue) : Alike v v
  | list (items items' : List SettingValue) (origin : Option String) :
    Alike (.list items origin) (.list items' origin)
  | table {es es' : Entries} (h : (es.map (·.1)).Perm (es'.map (·.1))) :
    Alike (.table es) (.table es')

theorem arrangedEach_eq_map (order : List String → Entries → Entries) (keys : List String)
    (es : Entries) :
    arrangedEach order keys es = es.map fun e => (e.1, arranged order (keys ++ [e.1]) e.2) := by
  induction es with
  | nil => rw [arrangedEach, List.map_nil]
  | cons e es ih =>
    obtain ⟨key, value⟩ := e
    rw [arrangedEach, List.map_cons, ih]

/-- A table that is arranged has the same keys as before, in an order of its own. -/
theorem keys_arranged (order : HashOrder) (keys : List String) (es : Entries) :
    ((order.file keys (arrangedEach order.file keys es)).map (·.1)).Perm (es.map (·.1)) := by
  have hkeys : (arrangedEach order.file keys es).map (·.1) = es.map (·.1) := by
    rw [arrangedEach_eq_map, List.map_map]
    rfl
  rw [← hkeys]
  exact (order.file_perm keys _).map _

/-- Two orders make values of one value that are read alike. -/
theorem arranged_alike (order order' : HashOrder) (keys : List String) (v : SettingValue) :
    Alike (arranged order.file keys v) (arranged order'.file keys v) := by
  cases v with
  | table es =>
    rw [arranged, arranged]
    exact .table ((keys_arranged order keys es).trans (keys_arranged order' keys es).symm)
  | nil | scalar | list => exact .refl _

theorem table_keys_put (key : String) (v v' : SettingValue) (es : Entries) :
    Alike (.table (put key v es)) (.table (put key v' es)) := by
  apply Alike.table
  rw [keys_put, keys_put]

/-- Merging makes a table of different keys, the old ones and those that come in. -/
theorem merge_table (incoming : Entries) {es : Entries} (hd : es.Distinct) :
    ∃ es' : Entries, merge incoming (.table es) = .table es' ∧ es'.Distinct ∧
      ∀ k, k ∈ es'.map (·.1) ↔ k ∈ incoming.map (lower ·.1) ∨ k ∈ es.map (·.1) := by
  induction incoming generalizing es with
  | nil => exact ⟨es, by rw [merge], hd, fun k => by simp⟩
  | cons e incoming ih =>
    obtain ⟨key, value⟩ := e
    let v := inserted value (es.lookup (lower key))
    have hstep : merge ((key, value) :: incoming) (.table es) =
        merge incoming (.table (put (lower key) v es)) := by
      rw [merge, insert_eq]
      rfl
    obtain ⟨es', hmerge, hd', hkeys⟩ := ih (distinct_put hd (lower key) v)
    refine ⟨es', hstep.trans hmerge, hd', fun k => ?_⟩
    rw [hkeys, mem_keys_put_iff, List.map_cons, List.mem_cons]
    tauto

theorem inserted_alike {value value' : SettingValue} (h : Alike value value') :
    Alike (inserted value none) (inserted value' none) := by
  cases h with
  | refl => exact .refl _
  | list items items' origin => exact .list items items' origin
  | table hkeys =>
    rename_i incoming incoming'
    obtain ⟨es, hmerge, hd, hes⟩ := merge_table incoming distinct_nil
    obtain ⟨es', hmerge', hd', hes'⟩ := merge_table incoming' distinct_nil
    have hlower : (incoming.map (lower ·.1)).Perm (incoming'.map (lower ·.1)) := by
      have hmap := hkeys.map lower
      rwa [List.map_map, List.map_map] at hmap
    rw [inserted, inserted, Option.getD_none, hmerge, hmerge']
    apply Alike.table
    apply (List.perm_ext_iff_of_nodup hd hd').mpr
    intro k
    rw [hes, hes', hlower.mem_iff]

namespace Alike

variable {v v' : SettingValue}

theorem toWord64 (h : Alike v v') (key : String) : v.toWord64 key = v'.toWord64 key := by
  cases h <;> rfl

theorem toBool (h : Alike v v') (key : String) : v.toBool key = v'.toBool key := by
  cases h <;> rfl

theorem toChoice {α : Type} (h : Alike v v') (kind : String) (choices : List (String × α)) :
    v.toChoice kind choices = v'.toChoice kind choices := by
  cases h with
  | refl | list => rfl
  | table hkeys =>
    rename_i es es'
    have hlength : es.length = es'.length := by simpa using hkeys.length_eq
    -- a table with one key is the choice of that key, and any other is no choice
    match es, es' with
    | [], [] => rfl
    | [(key, _)], [(key', _)] =>
      have hkey : key = key' := by simpa using hkeys
      rw [hkey]
      rfl
    | _ :: _ :: _, _ :: _ :: _ => rfl

/-- Where nothing is allowed as well, values that are read alike are still read alike. -/
theorem toOptional {α : Type} {read : SettingValue → Except TypeFault α} (h : Alike v v')
    (hread : read v = read v') : v.toOptional read = v'.toOptional read := by
  cases h with
  | refl => rfl
  | list | table => exact congrArg (Except.map some) hread

end Alike

end SettingValue

namespace KeyPath

open SettingValue (Alike)

variable {f f' : SettingValue → Except IndexUnderflow SettingValue}

def Mirrors (f f' : SettingValue → Except IndexUnderflow SettingValue) : Prop :=
  ∀ old v, f old = .ok v → ∃ v', f' old = .ok v' ∧ Alike v v'

/-- An entry is changed by changing its value, nil where there is none, and putting it back. -/
theorem changeEntry_eq_ok_iff {name : String} {old v : SettingValue} :
    changeEntry name f old = .ok v ↔ ∃ w, f ((old.entries.lookup (lower name)).getD .nil) = .ok w ∧
      .table (SettingValue.put (lower name) w old.entries) = v := by
  unfold changeEntry
  simp only [bind_eq_ok_iff, pure, Except.pure, Except.ok.injEq]

/-- Changes that mirror each other still do so below a key. -/
theorem changeEntry_mirrors (name : String) (h : Mirrors f f') :
    Mirrors (changeEntry name f) (changeEntry name f') := by
  intro old v hv
  obtain ⟨w, hw, rfl⟩ := changeEntry_eq_ok_iff.mp hv
  obtain ⟨w', hw', -⟩ := h _ _ hw
  exact ⟨_, changeEntry_eq_ok_iff.mpr ⟨w', hw', rfl⟩, SettingValue.table_keys_put _ _ _ _⟩

/-- Changes of an element mirror each other too, as lists are read alike. -/
theorem changeElement_mirrors (index : Int) (h : Mirrors f f') :
    Mirrors (changeElement index f) (changeElement index f') := by
  intro old v hv
  unfold changeElement at hv ⊢
  split at hv
  rename_i items origin _
  obtain ⟨i, hi, hv⟩ := bind_eq_ok_iff.mp hv
  obtain ⟨w, hw, hv⟩ := bind_eq_ok_iff.mp hv
  cases hv
  obtain ⟨w', hw', -⟩ := h _ _ hw
  dsimp only
  rw [hi]
  refine ⟨_, bind_eq_ok_iff.mpr ⟨i, rfl, bind_eq_ok_iff.mpr ⟨w', hw', rfl⟩⟩, .list _ _ origin⟩

/-- Changes that mirror each other under a path make values that are read alike, under the same key.
-/
theorem change_mirrors (path : KeyPath) {root next : SettingValue} (h : Mirrors f f')
    (hok : path.change f root = .ok next) :
    ∃ v v', next = .table (SettingValue.put (lower path.head) v root.entries) ∧
      path.change f' root = .ok (.table (SettingValue.put (lower path.head) v' root.entries)) ∧
      Alike v v' := by
  induction path generalizing f f' with
  | key name =>
    obtain ⟨v, hv, rfl⟩ := changeEntry_eq_ok_iff.mp hok
    obtain ⟨v', hv', halike⟩ := h _ _ hv
    exact ⟨v, v', rfl, changeEntry_eq_ok_iff.mpr ⟨v', hv', rfl⟩, halike⟩
  | entry parent name ih => exact ih (changeEntry_mirrors name h) hok
  | element parent index ih => exact ih (changeElement_mirrors index h) hok

/-- What assigning makes of the empty root depends on the value up to what can be read of it. -/
theorem assign_mirrors (path : KeyPath) {value value' next : SettingValue} (h : Alike value value')
    (hok : path.assign value (.table []) = .ok next) :
    ∃ v v', next = .table [(lower path.head, v)] ∧
      path.assign value' (.table []) = .ok (.table [(lower path.head, v')]) ∧ Alike v v' := by
  cases path with
  | key name =>
    cases hok
    refine ⟨_, _, SettingValue.insert_eq name value _, ?_, SettingValue.inserted_alike h⟩
    exact congrArg Except.ok (SettingValue.insert_eq name value' _)
  | entry parent name =>
    apply change_mirrors parent ?_ hok
    intro old v hv
    cases hv
    rw [SettingValue.insert_eq]
    refine ⟨_, rfl, ?_⟩
    rw [SettingValue.insert_eq]
    exact SettingValue.table_keys_put _ _ _ _
  | element parent index =>
    have hconst : Mirrors (fun _ => .ok value) fun _ => .ok value' := by
      intro old v hv
      cases hv
      exact ⟨value', rfl, h⟩
    exact change_mirrors parent (changeElement_mirrors index hconst) hok

end KeyPath

namespace Settings

open SettingValue (Alike)

def Writes (e : String × SettingValue) (v : SettingValue) : Prop :=
  (KeyPath.ofText e.1).assign e.2 (.table []) = .ok (.table [(target e, v)])

/-- No two entries lead to the same key of the root table. -/
def Apart (es : Entries) : Prop :=
  (es.map target).Nodup

instance : DecidablePred Apart := fun _ => inferInstanceAs (Decidable (List.Nodup _))

variable {e : String × SettingValue} {es : Entries} {v v' root root' next : SettingValue}

theorem Writes.unique (h : Writes e v) (h' : Writes e v') : v = v' := by
  have hsame := h.symm.trans h'
  cases hsame
  rfl

/-- An entry with a value that is read alike writes what is read alike. -/
theorem Writes.alike {key : String} {value value' : SettingValue} (h : Writes (key, value) v)
    (halike : Alike value value') : ∃ v', Writes (key, value') v' ∧ Alike v v' := by
  obtain ⟨w, w', hw, hw', hwalike⟩ := KeyPath.assign_mirrors _ halike h
  cases hw
  exact ⟨w', hw', hwalike⟩

/-- Where nothing stands under an entry's key, what else there is makes no difference. -/
theorem assign_eq_ok_iff (hfree : root.entries.lookup (target e) = none) :
    (KeyPath.ofText e.1).assign e.2 root = .ok next ↔
      ∃ v, Writes e v ∧ .table (SettingValue.put (target e) v root.entries) = next := by
  obtain ⟨g, hg⟩ := KeyPath.touches_assign (KeyPath.ofText e.1) e.2
  unfold Writes
  rw [hg, hg, ← target, hfree]
  simp only [SettingValue.entries, List.lookup_nil, SettingValue.put]
  rw [map_eq_ok_iff]
  refine exists_congr fun v => and_congr_left fun _ => ?_
  rw [map_eq_ok_iff]
  simp

def Free (es : Entries) (root : SettingValue) : Prop :=
  ∀ e ∈ es, root.entries.lookup (target e) = none

/-- A key that is written to is none of those that the other entries lead to. -/
theorem free_put (hapart : Apart (e :: es)) (hfree : Free (e :: es) root) (v : SettingValue) :
    Free es (.table (SettingValue.put (target e) v root.entries)) := by
  obtain ⟨hnot, -⟩ := List.nodup_cons.mp hapart
  intro e' he'
  have hne : target e' ≠ target e := fun heq => hnot (heq ▸ List.mem_map_of_mem he')
  rw [SettingValue.entries, SettingValue.lookup_put, if_neg hne]
  exact hfree e' (List.mem_cons_of_mem _ he')

/-- Entries for keys of their own, each of which can be written by itself, can be written one after
the other. -/
theorem exists_overlay_of_writes (hapart : Apart es) (hfree : Free es root)
    (h : ∀ e ∈ es, ∃ v, Writes e v) : ∃ root', overlay es root = .ok root' := by
  induction es generalizing root with
  | nil => exact ⟨root, rfl⟩
  | cons e es ih =>
    obtain ⟨v, hv⟩ := h e List.mem_cons_self
    obtain ⟨-, hrest⟩ := List.nodup_cons.mp hapart
    obtain ⟨root', hroot'⟩ := ih hrest (free_put hapart hfree v) fun e' he' =>
      h e' (List.mem_cons_of_mem _ he')
    refine ⟨root', ?_⟩
    have hassign := (assign_eq_ok_iff (hfree e List.mem_cons_self)).mpr ⟨v, hv, rfl⟩
    rw [overlay_cons_eq, hassign]
    exact hroot'

/-- What an entry writes into nothing stands under its key in the end. -/
theorem writes_of_overlay (hapart : Apart es) (hfree : Free es root)
    (h : overlay es root = .ok root') (he : e ∈ es) :
    ∃ v, Writes e v ∧ root'.entries.lookup (target e) = some v := by
  induction es generalizing root with
  | nil => cases he
  | cons e₀ es ih =>
    obtain ⟨next, hassign, hoverlay⟩ := overlay_cons h
    obtain ⟨v, hv, rfl⟩ := (assign_eq_ok_iff (hfree e₀ List.mem_cons_self)).mp hassign
    obtain ⟨hnot, hrest⟩ := List.nodup_cons.mp hapart
    rcases List.mem_cons.mp he with rfl | he
    · refine ⟨v, hv, ?_⟩
      rw [lookup_overlay_of_unmentioned hoverlay hnot, SettingValue.entries,
        SettingValue.lookup_put, if_pos rfl]
    · exact ih hrest (free_put hapart hfree v) hoverlay he

end Settings

namespace HashOrder

open Settings (target Apart apartFrom)

variable {order : HashOrder} {es handed : Entries} {e : String × SettingValue}

theorem arranges (order : HashOrder) (es : Entries) : order.Arranges es (order.arrange es) := by
  refine (order.file_perm [] _).trans ?_
  rw [SettingValue.arrangedEach_eq_map]
  rfl

theorem Arranges.mem_iff (h : order.Arranges es handed) :
    e ∈ handed ↔ ∃ e' ∈ es, (e'.1, SettingValue.arranged order.file [e'.1] e'.2) = e :=
  (List.Perm.mem_iff h).trans List.mem_map

/-- What the entries lead to does not depend on the order. -/
theorem Arranges.targets (h : order.Arranges es handed) :
    (handed.map target).Perm (es.map target) := by
  have hmap := h.map target
  rw [List.map_map] at hmap
  exact hmap

theorem Arranges.apart (h : order.Arranges es handed) (hapart : Apart es) : Apart handed :=
  h.targets.nodup_iff.mpr hapart

/-- Leaving out what leads to some keys does not depend on the order. -/
theorem Arranges.apartFrom (h : order.Arranges es handed) (keys : List String) :
    order.Arranges (apartFrom keys es) (apartFrom keys handed) := by
  have hfilter := List.Perm.filter (fun e => target e ∉ keys) h
  rw [List.filter_map] at hfilter
  exact hfilter

end HashOrder

namespace Settings

open SettingValue (Alike)

variable {es handed handed' : Entries} {order order' : HashOrder} {v v' root : SettingValue}

theorem free_nil (es : Entries) : Free es (.table []) :=
  fun _ _ => rfl

/-- Entries for keys of their own, each of which can be written by itself, can be written in every
order, and what each writes stands under its key. -/
theorem exists_overlay_of_arranges (h : order.Arranges es handed) (hapart : Apart es)
    (hwrites : ∀ e ∈ es, ∃ v, Writes (e.1, SettingValue.arranged order.file [e.1] e.2) v) :
    ∃ root, overlay handed (.table []) = .ok root ∧
      (∀ e ∈ es, ∀ v, Writes (e.1, SettingValue.arranged order.file [e.1] e.2) v →
        root.entries.lookup (target e) = some v) ∧
      ∀ k, k ∉ es.map target → root.entries.lookup k = none := by
  obtain ⟨root, hroot⟩ : ∃ root, overlay handed (.table []) = .ok root := by
    apply exists_overlay_of_writes (h.apart hapart) (free_nil _)
    intro e' he'
    obtain ⟨e, he, rfl⟩ := h.mem_iff.mp he'
    exact hwrites e he
  refine ⟨root, hroot, ?_, ?_⟩
  · intro e he v hv
    obtain ⟨w, hw, hlookup⟩ := writes_of_overlay (h.apart hapart) (free_nil _) hroot
      (h.mem_iff.mpr ⟨e, he, rfl⟩)
    rw [hv.unique hw]
    exact hlookup
  · intro k hk
    have hnot : k ∉ handed.map target := fun hmem => hk (h.targets.mem_iff.mp hmem)
    exact lookup_overlay_of_unmentioned hroot hnot

/-- Where no two entries lead to the same key, one order is as good as another: they can be written
in both or in neither, and what then stands under a key is read alike. -/
theorem overlay_arranged (h : order.Arranges es handed) (h' : order'.Arranges es handed')
    (hapart : Apart es) (hroot : overlay handed (.table []) = .ok root) :
    ∃ root', overlay handed' (.table []) = .ok root' ∧
      ∀ k, Option.Rel Alike (root.entries.lookup k) (root'.entries.lookup k) := by
  have hwrites : ∀ e ∈ es, ∃ v', Writes (e.1, SettingValue.arranged order'.file [e.1] e.2) v' ∧
      ∃ v, root.entries.lookup (target e) = some v ∧ Alike v v' := by
    intro e he
    obtain ⟨v, hv, hlookup⟩ := writes_of_overlay (h.apart hapart) (free_nil _) hroot
      (h.mem_iff.mpr ⟨e, he, rfl⟩)
    obtain ⟨v', hv', halike⟩ := hv.alike (SettingValue.arranged_alike order order' [e.1] e.2)
    exact ⟨v', hv', v, hlookup, halike⟩
  obtain ⟨root', hroot', hfound, hnone⟩ :=
    exists_overlay_of_arranges h' hapart fun e he => (hwrites e he).imp fun _ hv => hv.1
  refine ⟨root', hroot', fun k => ?_⟩
  by_cases hk : k ∈ es.map target
  · obtain ⟨e, he, rfl⟩ := List.mem_map.mp hk
    obtain ⟨v', hv', v, hlookup, halike⟩ := hwrites e he
    rw [hlookup, hfound e he v' hv']
    exact .some halike
  · have hkey : k ∉ handed.map target := fun hmem => hk (h.targets.mem_iff.mp hmem)
    have hempty : root.entries.lookup k = none := lookup_overlay_of_unmentioned hroot hkey
    rw [hempty, hnone k hk]
    exact .none

/-- A key that leads to a setting, or counts back from the end of a list: what stands beside it can
decide what is loaded, and whether anything is. -/
def Matters (key : String) : Prop :=
  lower (KeyPath.ofText key).head ∈ SettingName.all.map SettingName.text ∨
    (KeyPath.ofText key).CountsBack

instance : DecidablePred Matters := fun _ => inferInstanceAs (Decidable (_ ∨ _))

theorem matters_of_target {e : String × SettingValue} {n : SettingName} (h : target e = n.text) :
    Matters e.1 := by
  left
  change target e ∈ _
  rw [h]
  exact List.mem_map_of_mem n.mem_all

/-- An entry whose key matters is the only one that leads where it does. -/
def Orderless (es : Entries) : Prop :=
  ∀ e ∈ es, Matters e.1 → (es.map target).count (target e) = 1

instance : DecidablePred Orderless := fun es => inferInstanceAs (Decidable (∀ e ∈ es, _))

/-- The keys that more than one entry leads to. -/
def contested (es : Entries) : List String :=
  (es.map target).filter fun k => (es.map target).count k ≠ 1

theorem mem_contested_iff {k : String} :
    k ∈ contested es ↔ k ∈ es.map target ∧ (es.map target).count k ≠ 1 := by
  rw [contested, List.mem_filter, decide_eq_true_eq]

theorem apart_contested (es : Entries) : Apart (apartFrom (contested es) es) := by
  apply List.nodup_iff_count_le_one.mpr
  intro k
  by_cases hk : k ∈ (apartFrom (contested es) es).map target
  · obtain ⟨e, he, rfl⟩ := List.mem_map.mp hk
    obtain ⟨hes, hkept⟩ := mem_apartFrom_iff.mp he
    have hone : (es.map target).count (target e) = 1 := by
      by_contra hmany
      exact hkept (mem_contested_iff.mpr ⟨List.mem_map_of_mem hes, hmany⟩)
    rw [← hone]
    exact (List.filter_sublist.map target).count_le _
  · rw [List.count_eq_zero.mpr hk]
    exact Nat.zero_le 1

/-- What is contested leads to no setting and does not count back, if the order makes no difference.
-/
theorem Orderless.not_matters (h : Orderless es) {e : String × SettingValue} (he : e ∈ es)
    (hcontested : target e ∈ contested es) : ¬ Matters e.1 :=
  fun hmatters => (mem_contested_iff.mp hcontested).2 (h e he hmatters)

theorem Orderless.text_notMem (h : Orderless es) (n : SettingName) : n.text ∉ contested es := by
  intro hmem
  obtain ⟨e, he, htarget⟩ := List.mem_map.mp (mem_contested_iff.mp hmem).1
  exact h.not_matters he (htarget ▸ hmem) (matters_of_target htarget)

/-- Where only keys that do not matter are contested, one order of a file is as good as another for
the settings. -/
theorem overlay_orderless (h : order.Arranges es handed) (h' : order'.Arranges es handed')
    (hes : Orderless es) (hroot : overlay handed (.table []) = .ok root) :
    ∃ root', overlay handed' (.table []) = .ok root' ∧ ∀ n : SettingName,
      Option.Rel Alike (root.entries.lookup n.text) (root'.entries.lookup n.text) := by
  have hnil : SameBut (contested es) (.table []) (.table []) := rfl
  obtain ⟨core, hcore, hsame⟩ := overlay_apartFrom_of_ok hnil hroot
  obtain ⟨core', hcore', halike⟩ :=
    overlay_arranged (h.apartFrom _) (h'.apartFrom _) (apart_contested es) hcore
  -- what is left out does not count back, so it can be written in every order
  have hforward : ∀ e ∈ handed', target e ∈ contested es → ¬ (KeyPath.ofText e.1).CountsBack := by
    intro e he htarget hback
    obtain ⟨e', he', rfl⟩ := h'.mem_iff.mp he
    exact hes.not_matters he' htarget (.inr hback)
  obtain ⟨root', hroot', hsame'⟩ := exists_overlay_of_apartFrom hnil hforward hcore'
  refine ⟨root', hroot', fun n => ?_⟩
  rw [hsame.lookup (hes.text_notMem n), hsame'.lookup (hes.text_notMem n)]
  exact halike n.text

/-- Values that are alike are read as the same, whatever the setting. -/
theorem readAssignment_alike (key : String) (h : Alike v v') :
    readAssignment key v = readAssignment key v' := by
  have hword := h.toOptional (h.toWord64 key)
  have hlevel := h.toOptional (h.toChoice "CliLogLevel" Severity.byName)
  have hformat := h.toOptional (h.toChoice "LogFormat" LogFormat.byName)
  unfold readAssignment
  rw [hword, hlevel, hformat, h.toBool key]

end Settings

end MountControl
