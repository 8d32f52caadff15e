import Mathlib.Data.List.TakeWhile
import MountControl.Proofs.ArrangedSettings
import MountControl.Proofs.LowerCaseText

namespace MountControl

namespace SettingValue

/-- A table has every key once, and in lower case. Values of other kinds have no keys. -/
structure Tidy (v : SettingValue) : Prop where
  distinct : v.entries.Distinct
  lowered : ∀ k ∈ v.entries.map (·.1), lower k = k

variable {v root : SettingValue}

theorem tidy_of_no_entries (h : v.entries = []) : Tidy v := by
  constructor
  · rw [h]
    exact distinct_nil
  · rw [h]
    exact fun k hk => absurd hk List.not_mem_nil

theorem tidy_put (h : Tidy root) (name : String) (w : SettingValue) :
    Tidy (.table (put (lower name) w root.entries)) where
  distinct := distinct_put h.distinct _ _
  lowered k hk := by
    rcases mem_keys_put_iff.mp hk with rfl | hk
    · exact lower_lower name
    · exact h.lowered k hk

theorem tidy_merge (incoming : Entries) (h : Tidy root) : Tidy (merge incoming root) := by
  induction incoming generalizing root with
  | nil => rwa [merge]
  | cons e incoming ih =>
    obtain ⟨key, value⟩ := e
    rw [merge, insert_eq]
    exact ih (tidy_put h key _)

/-- What is inserted is tidy, whatever it is, if it comes to what was tidy. -/
theorem tidy_inserted (value : SettingValue) {old : Option SettingValue}
    (h : ∀ v, old = some v → Tidy v) : Tidy (inserted value old) := by
  cases value with
  | table incoming =>
    rw [inserted]
    apply tidy_merge
    cases old with
    | none => exact tidy_of_no_entries rfl
    | some v => exact h v rfl
  | nil | scalar | list => exact tidy_of_no_entries rfl

theorem tidy_of_lookup {es : Entries} (h : ∀ e ∈ es, Tidy e.2) {key : String}
    (hlookup : es.lookup key = some v) : Tidy v := by
  obtain ⟨before, after, rfl, -⟩ := List.lookup_eq_some_iff.mp hlookup
  exact h (key, v) (List.mem_append_right _ List.mem_cons_self)

theorem mem_put {key : String} {w : SettingValue} {es : Entries} {e : String × SettingValue}
    (h : e ∈ put key w es) : e = (key, w) ∨ e ∈ es := by
  induction es with
  | nil => exact .inl (List.mem_singleton.mp h)
  | cons e' es ih =>
    rw [put] at h
    split at h
    · exact (List.mem_cons.mp h).imp_right (List.mem_cons_of_mem _)
    · rcases List.mem_cons.mp h with rfl | h
      · exact .inr List.mem_cons_self
      · exact (ih h).imp_right (List.mem_cons_of_mem _)

/-- A tidy value that is inserted where there was none is read as it was. -/
theorem inserted_none_alike (h : Tidy v) : Alike (inserted v none) v := by
  cases v with
  | table es =>
    obtain ⟨es', hmerge, hd, hkeys⟩ := merge_table es distinct_nil
    have hlower : es.map (lower ·.1) = es.map (·.1) :=
      List.map_congr_left fun e he => h.lowered e.1 (List.mem_map_of_mem he)
    rw [inserted, Option.getD_none, hmerge]
    apply Alike.table
    apply (List.perm_ext_iff_of_nodup hd h.distinct).mpr
    intro k
    rw [hkeys, hlower, List.map_nil]
    exact or_iff_left List.not_mem_nil
  | nil | scalar | list => exact .refl _

theorem arranged_alike_self (order : HashOrder) (keys : List String) (v : SettingValue) :
    Alike (arranged order.file keys v) v := by
  cases v with
  | table es =>
    rw [arranged]
    exact .table (keys_arranged order keys es)
  | nil | scalar | list => exact .refl _

theorem tidy_arranged (order : HashOrder) (keys : List String) (h : Tidy v) :
    Tidy (arranged order.file keys v) := by
  cases v with
  | table es =>
    have hkeys := keys_arranged order keys es
    rw [arranged]
    exact ⟨hkeys.nodup_iff.mpr h.distinct, fun k hk => h.lowered k (hkeys.mem_iff.mp hk)⟩
  | nil | scalar | list => exact h

namespace Alike

variable {u w : SettingValue}

theorem symm (h : Alike u v) : Alike v u := by
  cases h with
  | refl => exact .refl _
  | list items items' origin => exact .list items' items origin
  | table hkeys => exact .table hkeys.symm

theorem trans (h : Alike u v) (h' : Alike v w) : Alike u w := by
  cases h with
  | refl => exact h'
  | list items items' origin =>
    cases h' with
    | refl => exact .list items items' origin
    | list _ items'' => exact .list items items'' origin
  | table hkeys =>
    cases h' with
    | refl => exact .table hkeys
    | table hkeys' => exact .table (hkeys.trans hkeys')

end Alike

end SettingValue

namespace KeyPath

open SettingValue (Tidy)

variable {f : SettingValue → Except IndexUnderflow SettingValue} {root next : SettingValue}
variable {s : String}

def KeepsTidy (f : SettingValue → Except IndexUnderflow SettingValue) : Prop :=
  ∀ old v, Tidy old → f old = .ok v → Tidy v

theorem keepsTidy_changeEntry (name : String)
    (f : SettingValue → Except IndexUnderflow SettingValue) : KeepsTidy (changeEntry name f) := by
  intro old v hold h
  obtain ⟨w, -, rfl⟩ := changeEntry_eq_ok_iff.mp h
  exact SettingValue.tidy_put hold name w

theorem keepsTidy_changeElement (index : Int)
    (f : SettingValue → Except IndexUnderflow SettingValue) :
    KeepsTidy (changeElement index f) := by
  intro old v _ h
  unfold changeElement at h
  split at h
  obtain ⟨i, -, h⟩ := bind_eq_ok_iff.mp h
  obtain ⟨w, -, h⟩ := bind_eq_ok_iff.mp h
  cases h
  exact SettingValue.tidy_of_no_entries rfl

/-- Below a key, a change leaves a tidy value tidy: the path makes tables and lists of its own. -/
theorem tidy_change (path : KeyPath) (hf : KeepsTidy f) (hroot : ∀ e ∈ root.entries, Tidy e.2)
    (h : path.change f root = .ok next) :
    ∃ v, next = .table (SettingValue.put (lower path.head) v root.entries) ∧ Tidy v := by
  induction path generalizing f with
  | key name =>
    obtain ⟨v, hv, rfl⟩ := changeEntry_eq_ok_iff.mp h
    refine ⟨v, rfl, hf _ v ?_ hv⟩
    cases hlookup : root.entries.lookup (lower name) with
    | none => exact SettingValue.tidy_of_no_entries rfl
    | some old => exact SettingValue.tidy_of_lookup hroot hlookup
  | entry parent name ih => exact ih (keepsTidy_changeEntry name f) h
  | element parent index ih => exact ih (keepsTidy_changeElement index f) h

theorem tidy_assign (path : KeyPath) {value : SettingValue} (hroot : ∀ e ∈ root.entries, Tidy e.2)
    (h : path.assign value root = .ok next) :
    ∃ v, next = .table (SettingValue.put (lower path.head) v root.entries) ∧ Tidy v := by
  cases path with
  | key name =>
    cases h
    refine ⟨_, SettingValue.insert_eq name value root, ?_⟩
    exact SettingValue.tidy_inserted value fun v hv => SettingValue.tidy_of_lookup hroot hv
  | entry parent name =>
    apply tidy_change parent ?_ hroot h
    intro old v hold hv
    cases hv
    rw [SettingValue.insert_eq]
    exact SettingValue.tidy_put hold name _
  | element parent index => exact tidy_change parent (keepsTidy_changeElement index _) hroot h

theorem isNameChar_toLower {c : Char} (h : isNameChar c = true) :
    c.toNat < 128 ∧ isNameChar c.toLower = true := by
  have hascii : c.toNat < 128 := by
    simp only [isNameChar, Bool.or_eq_true, decide_eq_true_eq] at h
    rcases h with ((halphanum | rfl) | rfl) | rfl
    · exact toNat_lt_of_isAlphanum halphanum
    · decide
    · decide
    · decide
  have hall : ∀ n < 128, isNameChar (Char.ofNat n) = true →
      isNameChar (Char.ofNat n).toLower = true := by
    decide
  have hc := hall c.toNat hascii
  rw [Char.ofNat_toNat] at hc
  exact ⟨hascii, hc h⟩

/-- A text of the characters of names is a path of one step. -/
theorem ofText_of_isNameChar (hne : s.toList ≠ []) (h : ∀ c ∈ s.toList, isNameChar c = true) :
    ofText s = .key s := by
  have htake : s.toList.takeWhile isNameChar = s.toList := List.takeWhile_eq_self_iff.mpr h
  have hdrop : s.toList.dropWhile isNameChar = [] := List.dropWhile_eq_nil_iff.mpr h
  rw [ofText, htake, hdrop, if_neg (by simpa using hne), String.ofList_toList]
  cases s.toList.length <;> rfl

/-- The steps that follow a path leave its first one as it is. -/
theorem head_of_readSteps {fuel : Nat} {path path' : KeyPath} {cs : List Char}
    (h : readSteps fuel path cs = some path') : path'.head = path.head := by
  fun_induction readSteps fuel path cs with
  | case1 => cases h; rfl
  | case2 => cases h
  | case3 fuel path rest name hname ih => exact ih h
  | case4 fuel path rest ih =>
    obtain ⟨⟨index, rest'⟩, -, hsteps⟩ := Option.bind_eq_some_iff.mp h
    exact ih index rest' hsteps
  | case5 => cases h

/-- A text that is no single key begins with a name. -/
theorem ofText_eq_key_or (text : String) : ofText text = .key text ∨
    (ofText text).head.toList ≠ [] ∧ ∀ c ∈ (ofText text).head.toList, isNameChar c = true := by
  by_cases hname : (text.toList.takeWhile isNameChar).isEmpty
  · exact .inl (if_pos hname)
  cases hsteps : readSteps text.toList.length
      (.key (String.ofList (text.toList.takeWhile isNameChar)))
      (text.toList.dropWhile isNameChar) with
  | none =>
    left
    rw [ofText, if_neg hname, hsteps]
    rfl
  | some path =>
    right
    have hpath : ofText text = path := by
      rw [ofText, if_neg hname, hsteps]
      rfl
    rw [hpath, head_of_readSteps hsteps]
    change (String.ofList _).toList ≠ [] ∧ ∀ c ∈ (String.ofList _).toList, _
    rw [String.toList_ofList]
    exact ⟨by simpa using hname, fun c hc => List.mem_takeWhile_imp hc⟩

theorem ofText_lower_of_isNameChar (hne : s.toList ≠ [])
    (h : ∀ c ∈ s.toList, isNameChar c = true) : ofText (lower s) = .key (lower s) := by
  have hlower : (lower s).toList = s.toList.map Char.toLower := by
    rw [lower, String.toList_ofList]
    exact lowerFrom_of_ascii [] fun c hc => (isNameChar_toLower (h c hc)).1
  apply ofText_of_isNameChar
  · rw [hlower]
    exact mt List.map_eq_nil_iff.mp hne
  · rw [hlower]
    exact List.forall_mem_map.mpr fun c hc => (isNameChar_toLower (h c hc)).2

end KeyPath

namespace Environment

theorem isSmall_of_mem_settingKey {name key : String} (h : settingKey? name = some key) {c : Char}
    (hc : c ∈ key.toList) : IsSmall c := by
  unfold settingKey? at h
  dsimp only at h
  split at h
  · have hkey : key = String.ofList ((lower name).toList.drop settingMark.length) :=
      (Option.some.inj h).symm
    rw [hkey, String.toList_ofList] at hc
    exact isSmall_of_mem_lower (List.mem_of_mem_drop hc)
  · cases h

/-- What stands in a variable's key is in lower case. -/
theorem lower_of_settingKey {name key : String} (h : settingKey? name = some key) :
    lower key = key :=
  lower_of_isSmall fun _ hc => isSmall_of_mem_settingKey h hc

end Environment

namespace Settings

open SettingValue (Entries Tidy Alike)

/-- A key that is no path is none in lower case either, or one that does not matter. -/
def Settled (e : String × SettingValue) : Prop :=
  KeyPath.ofText e.1 = .key e.1 →
    KeyPath.ofText (lower e.1) = .key (lower e.1) ∨ ¬ Matters (lower e.1)

instance : DecidablePred Settled := fun _ => inferInstanceAs (Decidable (_ → _ ∨ _))

variable {e : String × SettingValue} {es handed : Entries} {root root' : SettingValue}
variable {order : HashOrder}

/-- Where a settled key leads, it leads once more, as far as it matters. -/
theorem ofText_target (h : Settled e) :
    KeyPath.ofText (target e) = .key (target e) ∨ ¬ Matters (target e) := by
  rcases KeyPath.ofText_eq_key_or e.1 with hkey | ⟨hne, hname⟩
  · rw [target, hkey]
    exact h hkey
  · exact .inl (KeyPath.ofText_lower_of_isNameChar hne hname)

theorem settled_of_mem_settings {texts : Environment} (he : e ∈ texts.settings) : Settled e := by
  obtain ⟨var, -, hkey, -⟩ := Environment.mem_settings he
  rw [Settled, Environment.lower_of_settingKey hkey]
  exact .inl

/-- A table that is the same once it is copied, as far as settings are read from it. -/
structure Copyable (root : SettingValue) : Prop where
  distinct : root.entries.Distinct
  tidy : ∀ e ∈ root.entries, Tidy e.2
  single : ∀ e ∈ root.entries, KeyPath.ofText e.1 = .key e.1 ∨ ¬ Matters e.1
  lowered : ∀ e ∈ root.entries, lower e.1 = e.1

theorem copyable_nil : Copyable (.table []) where
  distinct := SettingValue.distinct_nil
  tidy := List.forall_mem_nil _
  single := List.forall_mem_nil _
  lowered := List.forall_mem_nil _

theorem Copyable.assign {next : SettingValue} (hroot : Copyable root) (h : Settled e)
    (hassign : (KeyPath.ofText e.1).assign e.2 root = .ok next) : Copyable next := by
  obtain ⟨v, rfl, hv⟩ := KeyPath.tidy_assign _ hroot.tidy hassign
  have hput {P : String × SettingValue → Prop} (hnew : P (target e, v))
      (hold : ∀ e' ∈ root.entries, P e') :
      ∀ e' ∈ SettingValue.put (target e) v root.entries, P e' := by
    intro e' he'
    rcases SettingValue.mem_put he' with rfl | he'
    · exact hnew
    · exact hold e' he'
  exact ⟨SettingValue.distinct_put hroot.distinct _ v, hput hv hroot.tidy,
    hput (ofText_target h) hroot.single, hput (lower_lower _) hroot.lowered⟩

/-- Settled entries make of a table that can be copied another one. -/
theorem Copyable.overlay (hroot : Copyable root) (hes : ∀ e ∈ es, Settled e)
    (h : overlay es root = .ok root') : Copyable root' := by
  induction es generalizing root with
  | nil =>
    cases h
    exact hroot
  | cons e es ih =>
    obtain ⟨he, hrest⟩ := List.forall_mem_cons.mp hes
    obtain ⟨next, hassign, hoverlay⟩ := overlay_cons h
    exact ih (hroot.assign he hassign) hrest hoverlay

theorem settled_of_arranges (h : order.Arranges es handed) (hes : ∀ e ∈ es, Settled e)
    (he : e ∈ handed) : Settled e := by
  obtain ⟨e', he', rfl⟩ := h.mem_iff.mp he
  exact hes e' he'

/-- Entries none of whose keys is a path are copied in every order, and read as they were. -/
theorem exists_copy_of_single (hd : es.Distinct) (htidy : ∀ e ∈ es, Tidy e.2)
    (hsingle : ∀ e ∈ es, KeyPath.ofText e.1 = .key e.1) (hlowered : ∀ e ∈ es, lower e.1 = e.1)
    (h : order.Arranges es handed) :
    ∃ copy, overlay handed (.table []) = .ok copy ∧
      ∀ k, Option.Rel Alike (es.lookup k) (copy.entries.lookup k) := by
  have htarget : ∀ e ∈ es, target e = e.1 := by
    intro e he
    rw [target, hsingle e he]
    exact hlowered e he
  have hkeys : es.map target = es.map (·.1) := List.map_congr_left htarget
  have hapart : Apart es := by
    rw [Apart, hkeys]
    exact hd
  have hwrites : ∀ e ∈ es, ∃ v,
      Writes (e.1, SettingValue.arranged order.file [e.1] e.2) v ∧ Alike e.2 v := by
    intro e he
    let value := SettingValue.arranged order.file [e.1] e.2
    refine ⟨SettingValue.inserted value none, ?_, ?_⟩
    · have hinsert := SettingValue.insert_eq e.1 value (.table [])
      rw [Writes, target, hsingle e he]
      exact congrArg Except.ok hinsert
    · have hvalue : Tidy value := SettingValue.tidy_arranged order [e.1] (htidy e he)
      exact ((SettingValue.inserted_none_alike hvalue).trans
        (SettingValue.arranged_alike_self order [e.1] e.2)).symm
  obtain ⟨copy, hcopy, hfound, hnone⟩ :=
    exists_overlay_of_arranges h hapart fun e he => (hwrites e he).imp fun _ hv => hv.1
  refine ⟨copy, hcopy, fun k => ?_⟩
  by_cases hk : k ∈ es.map (·.1)
  · obtain ⟨e, he, rfl⟩ := List.mem_map.mp hk
    obtain ⟨v, hv, halike⟩ := hwrites e he
    rw [SettingValue.lookup_of_mem hd he, ← htarget e he, hfound e he v hv]
    exact .some halike
  · rw [SettingValue.lookup_eq_none_of_not_mem hk, hnone k (by rwa [hkeys])]
    exact .none

/-- The keys that paths among the keys of a table lead to. -/
def pathTargets (es : Entries) : List String :=
  (es.filter fun e => KeyPath.ofText e.1 ≠ .key e.1).map target

theorem ofText_of_target_notMem (he : e ∈ es) (h : target e ∉ pathTargets es) :
    KeyPath.ofText e.1 = .key e.1 := by
  by_contra hpath
  exact h (List.mem_map_of_mem (List.mem_filter.mpr ⟨he, decide_eq_true hpath⟩))

namespace Copyable

/-- Paths that do not matter do not count back, and a single key does not either. -/
theorem not_countsBack (h : Copyable root) (he : e ∈ root.entries) :
    ¬ (KeyPath.ofText e.1).CountsBack := by
  intro hback
  rcases h.single e he with hkey | hnot
  · rw [hkey] at hback
    exact hback
  · exact hnot (.inr hback)

theorem text_notMem (h : Copyable root) (n : SettingName) : n.text ∉ pathTargets root.entries := by
  intro hmem
  obtain ⟨e, he, htarget⟩ := List.mem_map.mp hmem
  obtain ⟨hroot, hpath⟩ := List.mem_filter.mp he
  have hnot : ¬ Matters e.1 := (h.single e hroot).resolve_left (of_decide_eq_true hpath)
  exact hnot (matters_of_target htarget)

/-- The copy of such a table succeeds in every order, and settings are read from it as from the
table itself. -/
theorem exists_copy (h : Copyable root) (order : HashOrder) :
    ∃ copy, Settings.overlay (order.arrange root.entries) (.table []) = .ok copy ∧
      ∀ n : SettingName,
        Option.Rel Alike (root.entries.lookup n.text) (copy.entries.lookup n.text) := by
  let keys := pathTargets root.entries
  have harranges := order.arranges root.entries
  -- what is left without the keys that paths lead to has no paths
  have hkept : ∀ e ∈ apartFrom keys root.entries, e ∈ root.entries :=
    fun e he => (mem_apartFrom_iff.mp he).1
  have hsingle : ∀ e ∈ apartFrom keys root.entries, KeyPath.ofText e.1 = .key e.1 :=
    fun e he => ofText_of_target_notMem (hkept e he) (mem_apartFrom_iff.mp he).2
  have hd : Entries.Distinct (apartFrom keys root.entries) :=
    (List.filter_sublist.map _).nodup h.distinct
  obtain ⟨core, hcore, halike⟩ :=
    exists_copy_of_single hd (fun e he => h.tidy e (hkept e he)) hsingle
      (fun e he => h.lowered e (hkept e he)) (harranges.apartFrom keys)
  have hforward : ∀ e ∈ order.arrange root.entries, target e ∈ keys →
      ¬ (KeyPath.ofText e.1).CountsBack := by
    intro e he _
    obtain ⟨e', he', rfl⟩ := harranges.mem_iff.mp he
    have hback : ¬ (KeyPath.ofText e'.1).CountsBack := h.not_countsBack he'
    exact hback
  have hnil : SameBut keys (.table []) (.table []) := rfl
  obtain ⟨copy, hcopy, hsame⟩ := exists_overlay_of_apartFrom hnil hforward hcore
  refine ⟨copy, hcopy, fun n => ?_⟩
  rw [hsame.lookup (h.text_notMem n), ← lookup_apartFrom (h.text_notMem n)]
  exact halike n.text

end Copyable

end Settings

end MountControl
