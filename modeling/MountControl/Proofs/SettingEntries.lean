import Mathlib.Data.List.Induction
import Mathlib.Data.List.Nodup
import MountControl.Proofs.NameTables
import MountControl.Proofs.Utf8Text
import MountControl.Settings.Load

namespace MountControl

namespace SettingName

theorem mem_all (n : SettingName) : n ∈ all := by
  cases n <;> decide

theorem text_injective (n m : SettingName) (h : n.text = m.text) : n = m := by
  revert n m
  have hall : ∀ n ∈ all, ∀ m ∈ all, n.text = m.text → n = m := by decide
  intro n m
  exact hall n n.mem_all m m.mem_all

theorem lookup_byText_iff {key : String} {n : SettingName} :
    byText.lookup key = some n ↔ key = n.text := by
  rw [byText, lookup_map_name_iff text_injective]
  exact and_iff_right n.mem_all

theorem lower_text (n : SettingName) : lower n.text = n.text := by
  cases n <;> rfl

theorem ofText_text (n : SettingName) : KeyPath.ofText n.text = .key n.text := by
  cases n <;> rfl

end SettingName

namespace SettingValue

def Entries.Distinct (es : Entries) : Prop :=
  (es.map (·.1)).Nodup

theorem distinct_nil : Entries.Distinct [] :=
  List.nodup_nil

theorem lookup_put (key k : String) (value : SettingValue) (es : Entries) :
    (put key value es).lookup k = if k = key then some value else es.lookup k := by
  induction es with
  | nil =>
    rw [put, List.lookup_cons, List.lookup_nil]
    by_cases hk : k = key
    · rw [if_pos hk, hk, beq_self_eq_true]
    · rw [if_neg hk, beq_false_of_ne hk]
  | cons e es ih =>
    obtain ⟨k', old⟩ := e
    rw [put]
    by_cases hk' : k' = key
    · subst hk'
      rw [if_pos rfl, List.lookup_cons, List.lookup_cons]
      by_cases hk : k = k'
      · rw [if_pos hk, hk, beq_self_eq_true]
      · rw [if_neg hk, beq_false_of_ne hk]
    · rw [if_neg hk', List.lookup_cons, ih, List.lookup_cons]
      by_cases hk : k = k'
      · subst hk
        rw [beq_self_eq_true]
        exact (if_neg hk').symm
      · rw [beq_false_of_ne hk]

/-- A key that is set stays where it is, or comes last. -/
theorem keys_put (key : String) (value : SettingValue) (es : Entries) :
    (put key value es).map (·.1) =
      if key ∈ es.map (·.1) then es.map (·.1) else es.map (·.1) ++ [key] := by
  induction es with
  | nil => rfl
  | cons e es ih =>
    obtain ⟨k, old⟩ := e
    rw [put]
    by_cases hk : k = key
    · subst hk
      have hmem : k ∈ ((k, old) :: es).map (·.1) := List.mem_cons_self
      rw [if_pos rfl, if_pos hmem]
      rfl
    · have hmem : key ∈ ((k, old) :: es).map (·.1) ↔ key ∈ es.map (·.1) := by
        rw [List.map_cons, List.mem_cons]
        exact or_iff_right fun heq => hk heq.symm
      rw [if_neg hk, List.map_cons, ih, if_congr hmem rfl rfl]
      split <;> rfl

theorem mem_keys_put_iff {key k : String} {value : SettingValue} {es : Entries} :
    k ∈ (put key value es).map (·.1) ↔ k = key ∨ k ∈ es.map (·.1) := by
  rw [keys_put]
  split
  · rename_i hmem
    constructor
    · exact .inr
    · rintro (rfl | hk)
      · exact hmem
      · exact hk
  · rw [List.mem_append, List.mem_singleton]
    exact or_comm

theorem distinct_put {es : Entries} (h : es.Distinct) (key : String) (value : SettingValue) :
    (put key value es).Distinct := by
  rw [Entries.Distinct, keys_put]
  split
  · exact h
  · rename_i hnot
    rw [← List.concat_eq_append]
    exact List.Nodup.concat hnot h

theorem lookup_eq_none_of_not_mem {es : Entries} {key : String} (h : key ∉ es.map (·.1)) :
    es.lookup key = none := by
  apply List.lookup_eq_none_iff.mpr
  intro e he
  apply bne_iff_ne.mpr
  rintro rfl
  exact h (List.mem_map_of_mem he)

theorem lookup_of_mem {es : Entries} (hd : es.Distinct) {e : String × SettingValue} (he : e ∈ es) :
    es.lookup e.1 = some e.2 := by
  induction es with
  | nil => cases he
  | cons e' es ih =>
    obtain ⟨hnot, hrest⟩ := List.nodup_cons.mp hd
    rw [List.lookup_cons]
    rcases List.mem_cons.mp he with rfl | hmem
    · rw [beq_self_eq_true]
    · have hne : e.1 ≠ e'.1 := fun heq => hnot (List.mem_map.mpr ⟨e, hmem, heq⟩)
      rw [beq_false_of_ne hne]
      exact ih hrest hmem

/-- Where no key occurs twice, the values do not depend on the order. -/
theorem lookup_perm {es es' : Entries} (h : es.Perm es') (hd : es'.Distinct) (key : String) :
    es.lookup key = es'.lookup key := by
  have hkeys : (es.map (·.1)).Perm (es'.map (·.1)) := h.map _
  by_cases hkey : key ∈ es.map (·.1)
  · obtain ⟨e, he, rfl⟩ := List.mem_map.mp hkey
    have hd' : es.Distinct := hkeys.nodup_iff.mpr hd
    rw [lookup_of_mem hd' he, lookup_of_mem hd (h.mem_iff.mp he)]
  · have hkey' : key ∉ es'.map (·.1) := fun hmem => hkey (hkeys.mem_iff.mpr hmem)
    rw [lookup_eq_none_of_not_mem hkey, lookup_eq_none_of_not_mem hkey']

def inserted (value : SettingValue) (old : Option SettingValue) : SettingValue :=
  match value with
  | .table incoming => merge incoming (old.getD (.table []))
  | value => value

/-- Inserting a value puts one entry, merged with what was there. -/
theorem insert_eq (key : String) (value root : SettingValue) : insert key value root =
    .table (put (lower key) (inserted value (root.entries.lookup (lower key))) root.entries) := by
  cases value with
  | table incoming => rw [insert, inserted]
  | nil | scalar | list => rfl

end SettingValue

namespace KeyPath

def head : KeyPath → String
  | key name => name
  | entry parent _ => parent.head
  | element parent _ => parent.head

theorem entries_changeEntry {name : String} {f : SettingValue → Except IndexUnderflow SettingValue}
    {root root' : SettingValue} (h : changeEntry name f root = .ok root') :
    ∃ v, root'.entries = SettingValue.put (lower name) v root.entries := by
  unfold changeEntry at h
  dsimp only at h
  cases hf : f ((root.entries.lookup (lower name)).getD .nil) with
  | error e =>
    rw [hf] at h
    cases h
  | ok v =>
    rw [hf] at h
    cases h
    exact ⟨v, rfl⟩

/-- A change through a path touches one key of the root table. -/
theorem entries_change (path : KeyPath) {f : SettingValue → Except IndexUnderflow SettingValue}
    {root root' : SettingValue} (h : path.change f root = .ok root') :
    ∃ v, root'.entries = SettingValue.put (lower path.head) v root.entries := by
  -- a longer path is the change of a shorter one, by another function
  induction path generalizing f with
  | key name => exact entries_changeEntry h
  | entry parent name ih => exact ih h
  | element parent index ih => exact ih h

theorem entries_assign {path : KeyPath} {value root root' : SettingValue}
    (h : path.assign value root = .ok root') :
    ∃ v, root'.entries = SettingValue.put (lower path.head) v root.entries := by
  cases path with
  | key name =>
    cases h
    exact ⟨_, congrArg SettingValue.entries (SettingValue.insert_eq name value root)⟩
  | entry parent name => exact entries_change parent h
  | element parent index => exact entries_change parent h

def Touches (key : String) (write : SettingValue → Except IndexUnderflow SettingValue) : Prop :=
  ∃ g : Option SettingValue → Except IndexUnderflow SettingValue, ∀ root,
    write root =
      (g (root.entries.lookup key)).map fun v => .table (SettingValue.put key v root.entries)

theorem touches_changeEntry (name : String)
    (f : SettingValue → Except IndexUnderflow SettingValue) :
    Touches (lower name) (changeEntry name f) := by
  refine ⟨fun old => f (old.getD .nil), fun root => ?_⟩
  unfold changeEntry
  cases f ((root.entries.lookup (lower name)).getD .nil) <;> rfl

/-- A path changes nothing but the entry of its head. -/
theorem touches_change (path : KeyPath) (f : SettingValue → Except IndexUnderflow SettingValue) :
    Touches (lower path.head) (path.change f) := by
  induction path generalizing f with
  | key name => exact touches_changeEntry name f
  | entry parent name ih => exact ih (changeEntry name f)
  | element parent index ih => exact ih (changeElement index f)

theorem touches_insert (name : String) (value : SettingValue) :
    Touches (lower name) fun root => .ok (SettingValue.insert name value root) := by
  refine ⟨fun old => .ok (SettingValue.inserted value old), fun root => ?_⟩
  dsimp only
  rw [SettingValue.insert_eq]
  rfl

theorem touches_assign (path : KeyPath) (value : SettingValue) :
    Touches (lower path.head) (path.assign value) := by
  cases path with
  | key name => exact touches_insert name value
  | entry parent name => exact touches_change parent _
  | element parent index => exact touches_change parent _

end KeyPath

namespace Settings

open SettingValue (Entries)

def target (e : String × SettingValue) : String :=
  lower (KeyPath.ofText e.1).head

/-- Entries are assigned one after the other, up to the first that fails. -/
theorem overlay_cons_eq (e : String × SettingValue) (es : Entries) (root : SettingValue) :
    overlay (e :: es) root = match (KeyPath.ofText e.1).assign e.2 root with
      | .ok next => overlay es next
      | .error fault => .error (.underflow fault) :=
  rfl

theorem overlay_cons {key : String} {value root root' : SettingValue} {rest : Entries}
    (h : overlay ((key, value) :: rest) root = .ok root') :
    ∃ next, (KeyPath.ofText key).assign value root = .ok next ∧ overlay rest next = .ok root' := by
  rw [overlay] at h
  cases ha : (KeyPath.ofText key).assign value root with
  | error fault =>
    rw [ha] at h
    cases h
  | ok next =>
    rw [ha] at h
    exact ⟨next, rfl, h⟩

/-- Overlaying keeps the keys of a table distinct. -/
theorem distinct_overlay {es : Entries} {root root' : SettingValue}
    (h : overlay es root = .ok root') (hd : root.entries.Distinct) : root'.entries.Distinct := by
  induction es generalizing root with
  | nil =>
    cases h
    exact hd
  | cons e es ih =>
    obtain ⟨next, ha, hrest⟩ := overlay_cons h
    obtain ⟨v, hv⟩ := KeyPath.entries_assign ha
    apply ih hrest
    rw [hv]
    exact SettingValue.distinct_put hd _ v

/-- A key that no path begins with keeps its value. -/
theorem lookup_overlay_of_unmentioned {es : Entries} {root root' : SettingValue} {k : String}
    (h : overlay es root = .ok root') (hk : k ∉ es.map target) :
    root'.entries.lookup k = root.entries.lookup k := by
  induction es generalizing root with
  | nil =>
    cases h
    rfl
  | cons e es ih =>
    obtain ⟨next, ha, hrest⟩ := overlay_cons h
    obtain ⟨v, hv⟩ := KeyPath.entries_assign ha
    obtain ⟨hne, hlater⟩ := not_or.mp fun hmem => hk (List.mem_cons.mpr hmem)
    calc root'.entries.lookup k
      _ = next.entries.lookup k := ih hrest hlater
      _ = (SettingValue.put (target e) v root.entries).lookup k := by rw [hv, target]
      _ = root.entries.lookup k := by rw [SettingValue.lookup_put, if_neg hne]

/-- A key of a table that was written is an entry's, or was there before. -/
theorem mem_keys_overlay {es : Entries} {root root' : SettingValue} {k : String}
    (h : overlay es root = .ok root') (hk : k ∈ root'.entries.map (·.1)) :
    k ∈ es.map target ∨ k ∈ root.entries.map (·.1) := by
  by_contra hnot
  obtain ⟨hes, hroot⟩ := not_or.mp hnot
  have hnone : root'.entries.lookup k = none :=
    (lookup_overlay_of_unmentioned h hes).trans (SettingValue.lookup_eq_none_of_not_mem hroot)
  obtain ⟨e, he, rfl⟩ := List.mem_map.mp hk
  exact bne_iff_ne.mp (List.lookup_eq_none_iff.mp hnone e he) rfl

def IsPlain (e : String × SettingValue) : Prop :=
  lower e.1 = e.1 ∧ KeyPath.ofText e.1 = .key e.1 ∧ ∃ s origin, e.2 = .scalar s origin

/-- Plain entries can always be written, and each hides what stood under its key. -/
theorem overlay_plain {es : Entries} (hp : ∀ e ∈ es, IsPlain e) (hd : es.Distinct)
    (root : SettingValue) :
    ∃ root', overlay es root = .ok root' ∧
      ∀ k, root'.entries.lookup k = (es.lookup k).or (root.entries.lookup k) := by
  -- over every root at once: each entry is written into what those before it have made
  induction es generalizing root with
  | nil => exact ⟨root, rfl, fun k => rfl⟩
  | cons e es ih =>
    obtain ⟨key, value⟩ := e
    obtain ⟨hlower, hpath, s, origin, rfl⟩ := hp _ List.mem_cons_self
    obtain ⟨hnot, hrest⟩ := List.nodup_cons.mp hd
    let next := SettingValue.insert key (.scalar s origin) root
    obtain ⟨root', hok, hlookup⟩ := ih (fun e he => hp e (List.mem_cons_of_mem _ he)) hrest next
    refine ⟨root', ?_, ?_⟩
    · rw [overlay, hpath]
      exact hok
    · intro k
      have hnext : next = .table (SettingValue.put (lower key) (.scalar s origin) root.entries) :=
        SettingValue.insert_eq key (.scalar s origin) root
      rw [hlookup, hnext, SettingValue.entries, SettingValue.lookup_put, hlower, List.lookup_cons]
      by_cases hk : k = key
      · -- the keys are different, so no later entry hides this one
        rw [hk, SettingValue.lookup_eq_none_of_not_mem hnot, if_pos rfl, beq_self_eq_true]
        rfl
      · rw [if_neg hk, beq_false_of_ne hk]

end Settings

namespace Environment

theorem settings_append_singleton (env : Environment) (var : String × String) :
    settings (env ++ [var]) = match settingKey? var.1 with
      | some key => SettingValue.put key (.scalar (readValue var.2) origin) (settings env)
      | none => settings env := by
  rw [settings, List.foldl_append]
  rfl

theorem distinct_settings (env : Environment) : (settings env).Distinct := by
  induction env using List.reverseRecOn with
  | nil => exact SettingValue.distinct_nil
  | append_singleton env var ih =>
    rw [settings_append_singleton]
    split
    · exact SettingValue.distinct_put ih _ _
    · exact ih

/-- The value under a key is that of the last variable that names it. -/
theorem lookup_settings (env : Environment) (key : String) :
    (settings env).lookup key =
      (env.reverse.find? fun var => settingKey? var.1 = some key).map
        fun var => .scalar (readValue var.2) origin := by
  induction env using List.reverseRecOn with
  | nil => rfl
  | append_singleton env var ih =>
    rw [settings_append_singleton, List.reverse_append, List.reverse_singleton,
      List.singleton_append, List.find?_cons]
    cases hvar : settingKey? var.1 with
    | none => exact ih
    | some k =>
      dsimp only
      rw [SettingValue.lookup_put]
      by_cases hk : key = k
      · subst hk
        rw [if_pos rfl, decide_eq_true rfl]
        rfl
      · have hne : ¬ some k = some key := fun h => hk (Option.some.inj h).symm
        rw [if_neg hk, decide_eq_false hne, ih]

/-- Every entry of an environment comes from a variable with the prefix. -/
theorem mem_settings {env : Environment} {e : String × SettingValue} (he : e ∈ settings env) :
    ∃ var ∈ env, settingKey? var.1 = some e.1 ∧ e.2 = .scalar (readValue var.2) origin := by
  have hlookup := SettingValue.lookup_of_mem (distinct_settings env) he
  rw [lookup_settings] at hlookup
  obtain ⟨var, hfind, hvalue⟩ := Option.map_eq_some_iff.mp hlookup
  have hkey := List.find?_some hfind
  have hmem := List.mem_of_find?_eq_some hfind
  exact ⟨var, List.mem_reverse.mp hmem, of_decide_eq_true hkey, hvalue.symm⟩

end Environment

namespace SystemEnvironment

def key? (var : Bytes × Bytes) : Option String :=
  (Utf8.decode? var.1).bind Environment.settingKey?

variable {env : SystemEnvironment} {texts : Environment}

theorem text?_eq_some_iff {var : Bytes × Bytes} {text : String × String} :
    text? var = some text ↔
      Utf8.decode? var.1 = some text.1 ∧ Utf8.decode? var.2 = some text.2 := by
  obtain ⟨name, value⟩ := text
  simp [text?, Option.bind_eq_some_iff]

/-- An environment is text if each of its variables is. -/
theorem texts?_cons_eq_some_iff {var : Bytes × Bytes} : texts? (var :: env) = some texts ↔
    ∃ text rest, text? var = some text ∧ texts? env = some rest ∧ texts = text :: rest := by
  rw [texts?, List.mapM_cons]
  cases text? var with
  | none => simp
  | some text => cases hrest : env.mapM text? <;> simp [texts?, hrest, eq_comm]

/-- Variables are text just if each of them is. -/
theorem texts?_eq_none_iff : texts? env = none ↔ ∃ var ∈ env, text? var = none := by
  induction env with
  | nil => simp [texts?]
  | cons var env ih =>
    rw [List.exists_mem_cons_iff, ← ih]
    cases hvar : text? var <;> cases hrest : texts? env <;>
      simp_all [texts?, List.mapM_cons]

theorem texts?_encoded (env : Environment) : env.encoded.texts? = some env := by
  induction env with
  | nil => rfl
  | cons var env ih =>
    have hvar : text? (Utf8.encode var.1, Utf8.encode var.2) = some var :=
      text?_eq_some_iff.mpr ⟨Utf8.decode?_encode _, Utf8.decode?_encode _⟩
    exact texts?_cons_eq_some_iff.mpr ⟨var, env, hvar, ih, rfl⟩

theorem key?_of_text? {var : Bytes × Bytes} {text : String × String}
    (h : text? var = some text) : key? var = Environment.settingKey? text.1 := by
  rw [key?, (text?_eq_some_iff.mp h).1, Option.bind_some]

/-- Variables that are text name the same settings as their texts. -/
theorem map_key?_of_texts? (h : texts? env = some texts) :
    env.map key? = texts.map (Environment.settingKey? ·.1) := by
  induction env generalizing texts with
  | nil =>
    cases h
    rfl
  | cons var env ih =>
    obtain ⟨text, rest, hvar, hrest, rfl⟩ := texts?_cons_eq_some_iff.mp h
    rw [List.map_cons, List.map_cons, key?_of_text? hvar, ih hrest]

end SystemEnvironment

end MountControl
