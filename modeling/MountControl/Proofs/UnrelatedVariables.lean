import MountControl.Proofs.LayeredSettings

/-!
Variables that name no setting. Their values come to stand in the root table under keys that nothing
reads, so they cannot change the settings. They can still keep them from being loaded: an index that
counts from the end of a list in the file finds a scalar instead, which is made an empty list.
-/

namespace MountControl

namespace SettingValue

/-- A list can be rearranged such that what is kept of it comes in an order that is given. -/
theorem exists_rearrangement (p : String × SettingValue → Bool) (front : Entries) :
    ∃ rearrange : Entries → Entries, (∀ es, (rearrange es).Perm es) ∧
      ∀ es, front.Perm (es.filter p) → (rearrange es).filter p = front := by
  classical
  refine ⟨fun es => if front.Perm (es.filter p) then front ++ es.filter (! p ·) else es, ?_, ?_⟩
  · intro es
    dsimp only
    split
    · rename_i hfront
      exact (hfront.append_right _).trans (List.filter_append_perm _ es)
    · exact .refl es
  · intro es hfront
    have hkept : front.filter p = front :=
      List.filter_eq_self.mpr fun e he => (List.mem_filter.mp (hfront.mem_iff.mp he)).2
    have hrest : (es.filter (! p ·)).filter p = [] := by
      rw [List.filter_filter]
      exact List.filter_eq_nil_iff.mpr fun e _ => by simp
    dsimp only
    rw [if_pos hfront, List.filter_append, hkept, hrest, List.append_nil]

variable {order order' : List String → Entries → Entries}

mutual

/-- Orders that differ at the root only arrange what is below it in the same way. -/
theorem arranged_congr (h : ∀ keys ≠ [], order keys = order' keys) {keys : List String}
    (hkeys : keys ≠ []) : ∀ v, arranged order keys v = arranged order' keys v
  | .table es => by rw [arranged, arranged, arrangedEach_congr h keys es, h keys hkeys]
  | .nil | .scalar _ _ | .list _ _ => rfl

theorem arrangedEach_congr (h : ∀ keys ≠ [], order keys = order' keys) (keys : List String) :
    ∀ es, arrangedEach order keys es = arrangedEach order' keys es
  | [] => rfl
  | (key, value) :: rest => by
    have hlonger : keys ++ [key] ≠ [] :=
      List.append_ne_nil_of_right_ne_nil keys (List.cons_ne_nil key [])
    rw [arrangedEach, arrangedEach, arranged_congr h hlonger value, arrangedEach_congr h keys rest]

end

end SettingValue

namespace Environment

open SettingValue (Entries)

/-- Whether a variable's key can reach a setting: it is the name of one, or has a mark of a longer
path in it. -/
def IsRelated (key : String) : Prop :=
  '.' ∈ key.toList ∨ '[' ∈ key.toList ∨ key ∈ SettingName.all.map SettingName.text

instance : DecidablePred IsRelated := fun _ => inferInstanceAs (Decidable (_ ∨ _ ∨ _))

def related (env : Environment) : Environment :=
  env.filter fun var => (settingKey? var.1).any (IsRelated ·)

variable {env : Environment} {key : String}

/-- The related variables of an environment make up its related settings. -/
theorem settings_related (env : Environment) :
    settings env.related = (settings env).filter (IsRelated ·.1) := by
  induction env using List.reverseRecOn with
  | nil => rfl
  | append_singleton env var ih =>
    rw [related, List.filter_append, ← related, settings_append_singleton]
    cases hkey : settingKey? var.1 with
    | none =>
      have hdrop : [var].filter (fun var => (settingKey? var.1).any (IsRelated ·)) = [] := by
        simp [hkey]
      rw [hdrop, List.append_nil]
      exact ih
    | some key =>
      have hput := SettingValue.filter_put (IsRelated ·) key (.scalar (readValue var.2) origin)
        (settings env)
      rw [hput]
      by_cases hrel : IsRelated key
      · have hkeep : [var].filter (fun var => (settingKey? var.1).any (IsRelated ·)) = [var] := by
          simp [hkey, hrel]
        rw [hkeep, settings_append_singleton, hkey, ih, if_pos (decide_eq_true hrel)]
      · have hdrop : [var].filter (fun var => (settingKey? var.1).any (IsRelated ·)) = [] := by
          simp [hkey, hrel]
        rw [hdrop, List.append_nil, ih, if_neg (by simpa using hrel)]

/-- A key that reaches no setting is a path of one step, whatever else is in it. -/
theorem ofText_of_not_isRelated (h : ¬ IsRelated key) : KeyPath.ofText key = .key key := by
  obtain ⟨hdot, hrest⟩ := not_or.mp h
  obtain ⟨hbracket, -⟩ := not_or.mp hrest
  rw [KeyPath.ofText]
  by_cases hname : (key.toList.takeWhile KeyPath.isNameChar).isEmpty
  · exact if_pos hname
  refine (if_neg hname).trans ?_
  cases hafter : key.toList.dropWhile KeyPath.isNameChar with
  | nil =>
    have hall : key.toList.takeWhile KeyPath.isNameChar = key.toList :=
      List.takeWhile_eq_self_iff.mpr (List.dropWhile_eq_nil_iff.mp hafter)
    rw [hall, String.ofList_toList]
    cases key.toList.length <;> rfl
  | cons c cs =>
    -- the name ends at a character that begins no step
    have hmem : c ∈ key.toList := by
      apply (List.dropWhile_suffix KeyPath.isNameChar).subset
      rw [hafter]
      exact List.mem_cons_self
    have hcdot : c ≠ '.' := fun heq => hdot (heq ▸ hmem)
    have hcbracket : c ≠ '[' := fun heq => hbracket (heq ▸ hmem)
    -- a step begins with one of the two marks
    have hnone (fuel : Nat) (path : KeyPath) : KeyPath.readSteps fuel path (c :: cs) = none := by
      unfold KeyPath.readSteps
      split <;> simp_all
    rw [hnone]
    rfl

end Environment

namespace SystemEnvironment

open Environment (IsRelated)
open SettingValue (Entries)

def related (env : SystemEnvironment) : SystemEnvironment :=
  env.filter fun var => (key? var).any (IsRelated ·)

def strayKeys (env : SystemEnvironment) : List String :=
  (env.filterMap key?).filter (¬ IsRelated ·)

/-- The keys of the variables of two environments that name no setting. -/
def strays (env env' : SystemEnvironment) : List String :=
  env.strayKeys ++ env'.strayKeys

/-- Two runs go through the file in the same order, and through what the variables that can reach a
setting make up as well. -/
structure AgreeOnRelated (env env' : SystemEnvironment) (order order' : HashOrder) : Prop where
  file : order.file = order'.file
  related : ∀ texts texts', env.texts? = some texts → env'.texts? = some texts' →
    (order.environment texts.settings).filter (IsRelated ·.1) =
      (order'.environment texts'.settings).filter (IsRelated ·.1)

variable {env env' : SystemEnvironment} {texts texts' : Environment} {order order' : HashOrder}
variable {key : String}

theorem AgreeOnRelated.symm (h : AgreeOnRelated env env' order order') :
    AgreeOnRelated env' env order' order where
  file := h.file.symm
  related _ _ htexts htexts' := (h.related _ _ htexts' htexts).symm

/-- The stray keys are those that belong to no setting. -/
theorem mem_strayKeys_iff :
    key ∈ env.strayKeys ↔ (∃ var ∈ env, key? var = some key) ∧ ¬ IsRelated key := by
  rw [strayKeys, List.mem_filter, List.mem_filterMap, decide_eq_true_eq]

theorem mem_strays_comm : key ∈ env.strays env' ↔ key ∈ env'.strays env := by
  rw [strays, strays, List.mem_append, List.mem_append]
  exact or_comm

/-- A stray key leads to itself. -/
theorem target_of_mem_strayKeys {e : String × SettingValue} (h : e.1 ∈ env.strayKeys) :
    Settings.target e = e.1 := by
  obtain ⟨⟨var, -, hkey⟩, hstray⟩ := mem_strayKeys_iff.mp h
  obtain ⟨name, -, hname⟩ := Option.bind_eq_some_iff.mp hkey
  rw [Settings.target, Environment.ofText_of_not_isRelated hstray]
  exact Environment.lower_of_settingKey hname

theorem target_of_mem_strays {e : String × SettingValue} (h : e.1 ∈ env.strays env') :
    Settings.target e = e.1 := by
  rcases List.mem_append.mp h with h | h
  · exact target_of_mem_strayKeys h
  · exact target_of_mem_strayKeys h

/-- The names of the settings are related. -/
theorem text_notMem_strays (n : SettingName) : n.text ∉ env.strays env' := by
  have hrelated : IsRelated n.text := .inr (.inr (List.mem_map_of_mem n.mem_all))
  intro hmem
  rcases List.mem_append.mp hmem with h | h
  · exact (mem_strayKeys_iff.mp h).2 hrelated
  · exact (mem_strayKeys_iff.mp h).2 hrelated

/-- The related variables of an environment that is text are those of its texts. -/
theorem texts?_related (h : env.texts? = some texts) : env.related.texts? = some texts.related := by
  induction env generalizing texts with
  | nil =>
    cases h
    rfl
  | cons var env ih =>
    obtain ⟨text, rest, hvar, hrest, rfl⟩ := texts?_cons_eq_some_iff.mp h
    have hkey : key? var = Environment.settingKey? text.1 := key?_of_text? hvar
    rw [related, Environment.related, List.filter_cons, List.filter_cons, hkey]
    split
    · exact texts?_cons_eq_some_iff.mpr ⟨text, _, hvar, ih hrest, rfl⟩
    · exact ih hrest

/-- The related entries of two environments with the same related variables are the same, until they
are put in order. -/
theorem filter_settings (h : env.related = env'.related) (htexts : env.texts? = some texts)
    (htexts' : env'.texts? = some texts') :
    texts.settings.filter (IsRelated ·.1) = texts'.settings.filter (IsRelated ·.1) := by
  have hsame := texts?_related htexts
  rw [h, texts?_related htexts'] at hsame
  rw [← Environment.settings_related, ← Environment.settings_related, Option.some.inj hsame]

/-- Environments with the same related variables agree on them, taken in the order listed. -/
theorem agreeOnRelated_asListed (h : env.related = env'.related) :
    AgreeOnRelated env env' .asListed .asListed where
  file := rfl
  related _ _ htexts htexts' := filter_settings h htexts htexts'

/-- Whatever the order of the one run, a run with the other environment can agree with it. -/
theorem exists_agreeOnRelated (h : env.related = env'.related) (order : HashOrder) :
    ∃ order', env.AgreeOnRelated env' order order' := by
  by_cases htext : ∃ texts texts', env.texts? = some texts ∧ env'.texts? = some texts'
  · obtain ⟨texts, texts', htexts, htexts'⟩ := htext
    let front := (order.environment texts.settings).filter (IsRelated ·.1)
    have hfront : front.Perm (texts'.settings.filter (IsRelated ·.1)) := by
      rw [← filter_settings h htexts htexts']
      exact (order.environment_perm _).filter _
    obtain ⟨rearrange, hperm, hfilter⟩ := SettingValue.exists_rearrangement (IsRelated ·.1) front
    refine ⟨{ order with environment := rearrange, environment_perm := hperm }, rfl, ?_⟩
    intro t t' ht ht'
    cases htexts.symm.trans ht
    cases htexts'.symm.trans ht'
    exact (hfilter _ hfront).symm
  · exact ⟨order, rfl, fun t t' ht ht' => absurd ⟨t, t', ht, ht'⟩ htext⟩

theorem exists_key_of_mem_settings (htexts : env.texts? = some texts) {e : String × SettingValue}
    (he : e ∈ texts.settings) : ∃ var ∈ env, key? var = some e.1 := by
  obtain ⟨text, htext, hkey, -⟩ := Environment.mem_settings he
  have hmem : some e.1 ∈ env.map key? := by
    rw [map_key?_of_texts? htexts, ← hkey]
    exact List.mem_map_of_mem htext
  exact List.mem_map.mp hmem

/-- The entries of an environment apart from the stray keys are related. -/
theorem apartFrom_related (htexts : env.texts? = some texts) {keys : List String}
    (hkeys : ∀ stray ∈ env.strayKeys, stray ∈ keys) (order : HashOrder) :
    Settings.apartFrom keys (order.environment texts.settings) =
      Settings.apartFrom keys ((order.environment texts.settings).filter (IsRelated ·.1)) := by
  rw [Settings.apartFrom, Settings.apartFrom, List.filter_filter]
  apply List.filter_congr
  intro e he
  by_cases hrel : IsRelated e.1
  · simp [hrel]
  · have hmem := (order.environment_perm _).mem_iff.mp he
    have hstray : e.1 ∈ env.strayKeys :=
      mem_strayKeys_iff.mpr ⟨exists_key_of_mem_settings htexts hmem, hrel⟩
    have htarget : Settings.target e ∈ keys := by
      rw [target_of_mem_strayKeys hstray]
      exact hkeys e.1 hstray
    simp [hrel, htarget]

/-- A path that counts back belongs to a variable that can reach a setting. -/
theorem exists_related_of_countsBack (htexts : env.texts? = some texts)
    {e : String × SettingValue} (he : e ∈ texts.settings)
    (hback : (KeyPath.ofText e.1).CountsBack) : ∃ var ∈ env.related, key? var = some e.1 := by
  obtain ⟨var, hvar, hkey⟩ := exists_key_of_mem_settings htexts he
  have hrel : IsRelated e.1 := by
    by_contra hstray
    rw [Environment.ofText_of_not_isRelated hstray] at hback
    exact hback
  refine ⟨var, List.mem_filter.mpr ⟨hvar, ?_⟩, hkey⟩
  rw [hkey]
  exact decide_eq_true hrel

theorem text?_ne_none_of_mem_encoded {env : Environment} {var : Bytes × Bytes}
    (h : var ∈ env.encoded) : text? var ≠ none := by
  intro htext
  have hnone := texts?_eq_none_iff.mpr ⟨var, h, htext⟩
  rw [texts?_encoded] at hnone
  cases hnone

/-- Where one environment is text and another has the same related variables, what is no text there
names no setting. -/
theorem exists_stray_of_no_text (h : env.related = env'.related) (htexts : env.texts? = some texts)
    (hnone : env'.texts? = none) : ∃ var ∈ env', var ∉ env'.related ∧ text? var = none := by
  obtain ⟨var, hvar, htext⟩ := texts?_eq_none_iff.mp hnone
  refine ⟨var, hvar, ?_, htext⟩
  intro hrelated
  have hmem : var ∈ env := by
    rw [← h] at hrelated
    exact List.mem_of_mem_filter hrelated
  have hnone' : env.texts? = none := texts?_eq_none_iff.mpr ⟨var, hmem, htext⟩
  rw [htexts] at hnone'
  cases hnone'

end SystemEnvironment

namespace Settings

open SettingValue (Entries arranged arrangedEach)
open SystemEnvironment (key? text?)

/-- The paths that are followed beside those of stray variables: the key of a related variable, and
what a key of the file becomes that is a path, and matters, in lower case only. -/
inductive LeadsOn (tree : FileTree) (cwd : Path) (file : Option Path) (env : SystemEnvironment) :
    String → Prop
  | ofVariable {var : Bytes × Bytes} {key : String} (hvar : var ∈ env.related)
    (hkey : key? var = some key) : LeadsOn tree cwd file env key
  | ofFile {entries : Entries} {e : String × SettingValue}
    (hentries : fileEntries tree cwd file = .ok entries) (he : e ∈ entries) (h : ¬ Settled e) :
    LeadsOn tree cwd file env (lower e.1)

/-- In one of two environments a variable that names no setting goes by the key that a path which
counts back begins with. -/
def Undercut (tree : FileTree) (cwd : Path) (file : Option Path)
    (env env' : SystemEnvironment) : Prop :=
  ∃ key, LeadsOn tree cwd file env key ∧ (KeyPath.ofText key).CountsBack ∧
    lower (KeyPath.ofText key).head ∈ env.strays env'

/-- How a variable of the second environment that names no setting can keep settings from being
loaded that are loaded with the first: it is no text itself, or an index is out of its list. -/
inductive Hampers (tree : FileTree) (cwd : Path) (file : Option Path)
    (env env' : SystemEnvironment) : SettingsFault → Prop
  | noText {var : Bytes × Bytes} (hvar : var ∈ env') (hstray : var ∉ env'.related)
    (htext : text? var = none) : Hampers tree cwd file env env' .variableNotText
  | undercut (h : Undercut tree cwd file env env') (fault : IndexUnderflow) :
    Hampers tree cwd file env env' (.underflow fault)

/-- Two runs go through the file and the related variables in the same order. Where a key of the
file becomes a path that matters in lower case only, they copy what lies apart from the stray keys
in the same order as well. -/
structure InStep (tree : FileTree) (cwd : Path) (file : Option Path)
    (env env' : SystemEnvironment) (order order' : HashOrder) : Prop where
  overlays : env.AgreeOnRelated env' order order'
  copies : SettledFile tree cwd file ∨ ∀ root root', collect tree cwd file env order = .ok root →
    collect tree cwd file env' order' = .ok root' →
      apartFrom (env.strays env') (order.copying.arrange root.entries) =
        apartFrom (env.strays env') (order'.copying.arrange root'.entries)

variable {tree : FileTree} {cwd : Path} {file : Option Path} {env env' : SystemEnvironment}
variable {order order' : HashOrder} {keys : List String} {root root' : SettingValue}
  {s s' : Settings}

theorem apartFrom_strays_comm (es : Entries) :
    apartFrom (env.strays env') es = apartFrom (env'.strays env) es := by
  apply List.filter_congr
  intro e _
  rw [decide_not, decide_not, decide_eq_decide.mpr SystemEnvironment.mem_strays_comm]

theorem InStep.symm (h : InStep tree cwd file env env' order order') :
    InStep tree cwd file env' env order' order where
  overlays := h.overlays.symm
  copies := by
    refine h.copies.imp_right fun hcopies root root' hroot hroot' => ?_
    have hback := (hcopies root' root hroot' hroot).symm
    exact (apartFrom_strays_comm _).trans (hback.trans (apartFrom_strays_comm _))

/-- What a setting comes to does not depend on other keys. -/
theorem follows_congr {n : SettingName} (hn : n.text ∉ keys) (hsame : SameBut keys root root') :
    Follows s root.entries s' n ↔ Follows s root'.entries s' n := by
  rw [Follows, Follows, hsame.lookup hn]

/-- Once the file is written, what is left of collecting is up to the variables. -/
theorem collect_of_file {entries : Entries} {fromFile : SettingValue}
    (hentries : fileEntries tree cwd file = .ok entries)
    (hfile : overlay (order.arrange entries) (.table []) = .ok fromFile) :
    collect tree cwd file env order =
      (variableEntries env).bind fun es => overlay (order.environment es) fromFile := by
  unfold collect
  rw [hentries]
  change ((overlay (order.arrange entries) (.table [])).bind _) = _
  rw [hfile]
  rfl

/-- What is collected with one environment is collected with every other that has the same related
variables, but for the stray keys, or a variable that names no setting hampers that. -/
theorem collect_with_other (h : env.related = env'.related)
    (hagree : env.AgreeOnRelated env' order order')
    (hcollect : collect tree cwd file env order = .ok root) :
    (∃ root', collect tree cwd file env' order' = .ok root' ∧
        SameBut (env.strays env') root root') ∨
      ∃ fault, Hampers tree cwd file env env' fault ∧
        collect tree cwd file env' order' = .error fault := by
  obtain ⟨entries, hentries, fromFile, hfile, texts, htexts, hroot⟩ :=
    collect_eq_ok_iff.mp hcollect
  have hfile' : overlay (order'.arrange entries) (.table []) = .ok fromFile := by
    rwa [HashOrder.arrange, ← hagree.file]
  have hcollect' : collect tree cwd file env' order' = _ := collect_of_file hentries hfile'
  cases htexts' : env'.texts? with
  | none =>
    obtain ⟨var, hvar, hstray, htext⟩ :=
      SystemEnvironment.exists_stray_of_no_text h htexts htexts'
    refine .inr ⟨.variableNotText, .noText hvar hstray htext, ?_⟩
    rw [hcollect', variableEntries, htexts']
    rfl
  | some texts' =>
    have hvariables : variableEntries env' = .ok texts'.settings := by rw [variableEntries, htexts']
    rw [hvariables] at hcollect'
    -- both environments write the same apart from the keys of what names no setting
    have happart : apartFrom (env.strays env') (order.environment texts.settings) =
        apartFrom (env.strays env') (order'.environment texts'.settings) := by
      have hrelated := SystemEnvironment.apartFrom_related htexts
        (fun stray hs => List.mem_append_left env'.strayKeys hs) order
      have hrelated' := SystemEnvironment.apartFrom_related htexts'
        (fun stray hs => List.mem_append_right env.strayKeys hs) order'
      rw [hagree.related _ _ htexts htexts'] at hrelated
      exact hrelated.trans hrelated'.symm
    have hsame : SameBut (env.strays env') fromFile fromFile := rfl
    obtain ⟨core, hcore, hrootCore⟩ := overlay_apartFrom_of_ok hsame hroot
    cases hroot' : overlay (order'.environment texts'.settings) fromFile with
    | ok root' =>
      obtain ⟨core', hcore', hrootCore'⟩ := overlay_apartFrom_of_ok hsame hroot'
      rw [happart, hcore'] at hcore
      cases hcore
      exact .inl ⟨root', hcollect'.trans hroot', hrootCore.trans hrootCore'.symm⟩
    | error fault =>
      obtain ⟨u, rfl⟩ := overlay_error hroot'
      refine .inr ⟨.underflow u, .undercut ?_ u, hcollect'.trans hroot'⟩
      rcases overlay_apartFrom_of_error hsame hroot' with
        ⟨fault', hfault⟩ | ⟨e, he, htarget, hback⟩
      · rw [happart, hfault] at hcore
        cases hcore
      · have hmem := (order'.environment_perm _).mem_iff.mp he
        obtain ⟨var, hvar, hkey⟩ :=
          SystemEnvironment.exists_related_of_countsBack htexts' hmem hback
        exact ⟨e.1, .ofVariable (h ▸ hvar) hkey, hback, htarget⟩

theorem apartFrom_arrangedEach (order : List String → Entries → Entries) (es : Entries) :
    apartFrom keys (arrangedEach order [] es) = arrangedEach order [] (apartFrom keys es) := by
  rw [SettingValue.arrangedEach_eq_map, SettingValue.arrangedEach_eq_map, apartFrom, apartFrom,
    List.filter_map]
  rfl

/-- Tables that are the same but for stray keys are the same apart from what leads to these. -/
theorem SameBut.apartFrom_entries (h : SameBut (env.strays env') root root') :
    apartFrom (env.strays env') root.entries = apartFrom (env.strays env') root'.entries := by
  have hfilter (es : Entries) : apartFrom (env.strays env') (es.filter (·.1 ∉ env.strays env')) =
      apartFrom (env.strays env') es := by
    rw [apartFrom, List.filter_filter]
    apply List.filter_congr
    intro e _
    by_cases he : e.1 ∈ env.strays env'
    · have htarget : target e = e.1 := SystemEnvironment.target_of_mem_strays he
      simp [htarget, he]
    · simp [he]
  rw [← hfilter root.entries, h, hfilter]

/-- Whatever the order of the one run, a run with the other environment can be in step with it. -/
theorem exists_inStep (h : env.related = env'.related) (order : HashOrder) :
    ∃ order', InStep tree cwd file env env' order order' := by
  obtain ⟨other, hagree⟩ := SystemEnvironment.exists_agreeOnRelated h order
  by_cases hcollect : ∃ root root', collect tree cwd file env order = .ok root ∧
      collect tree cwd file env' other = .ok root'
  · obtain ⟨root, root', hroot, hroot'⟩ := hcollect
    have hsame : SameBut (env.strays env') root root' := by
      rcases collect_with_other h hagree hroot with ⟨root₁, hroot₁, hsame⟩ | ⟨fault, -, hfault⟩
      · cases hroot'.symm.trans hroot₁
        exact hsame
      · cases hroot'.symm.trans hfault
    let front := apartFrom (env.strays env') (order.copying.arrange root.entries)
    have hfront : front.Perm
        (apartFrom (env.strays env') (arrangedEach order.copy [] root'.entries)) := by
      rw [apartFrom_arrangedEach, ← hsame.apartFrom_entries, ← apartFrom_arrangedEach]
      exact (order.copy_perm [] _).filter _
    obtain ⟨rearrange, hperm, hfilter⟩ :=
      SettingValue.exists_rearrangement (target · ∉ env.strays env') front
    -- only the root is copied in another order than in the first run
    let copy (keys : List String) (es : Entries) : Entries :=
      if keys = [] then rearrange es else order.copy keys es
    have hcopy (keys : List String) (es : Entries) : (copy keys es).Perm es := by
      dsimp only [copy]
      split
      · exact hperm es
      · exact order.copy_perm keys es
    refine ⟨{ other with copy := copy, copy_perm := hcopy }, ⟨hagree.file, hagree.related⟩, .inr ?_⟩
    intro root₁ root₁' hroot₁ hroot₁'
    cases hroot.symm.trans hroot₁
    cases hroot'.symm.trans hroot₁'
    have hnested : arrangedEach copy [] root'.entries = arrangedEach order.copy [] root'.entries :=
      SettingValue.arrangedEach_congr (fun keys hkeys => funext fun es => if_neg hkeys) [] _
    have hother :
        apartFrom (env.strays env') (copy [] (arrangedEach copy [] root'.entries)) = front := by
      rw [hnested]
      exact hfilter _ hfront
    exact hother.symm
  · refine ⟨other, hagree, .inr fun root root' hroot hroot' => ?_⟩
    exact absurd ⟨root, root', hroot, hroot'⟩ hcollect

/-- Environments with the same related variables are in step, where everything is taken in the order
listed. -/
theorem inStep_asListed (h : env.related = env'.related) :
    InStep tree cwd file env env' .asListed .asListed where
  overlays := SystemEnvironment.agreeOnRelated_asListed h
  copies := by
    refine .inr fun root root' hroot hroot' => ?_
    rcases collect_with_other h (SystemEnvironment.agreeOnRelated_asListed h) hroot with
      ⟨root₁, hroot₁, hsame⟩ | ⟨fault, -, hfault⟩
    · cases hroot'.symm.trans hroot₁
      change apartFrom _ (arrangedEach _ [] root.entries) =
        apartFrom _ (arrangedEach _ [] root'.entries)
      rw [apartFrom_arrangedEach, apartFrom_arrangedEach, hsame.apartFrom_entries]
    · cases hroot'.symm.trans hfault

/-- Of the keys of what is collected, only one that is a path in lower case only counts back. -/
theorem leadsOn_of_countsBack (hcollect : collect tree cwd file env' order = .ok root)
    {e : String × SettingValue} (he : e ∈ root.entries)
    (hback : (KeyPath.ofText e.1).CountsBack) : LeadsOn tree cwd file env e.1 := by
  obtain ⟨entries, hentries, fromFile, hfile, texts, -, hroot⟩ := collect_eq_ok_iff.mp hcollect
  have hunsettled {e' : String × SettingValue} (htarget : target e' = e.1) : ¬ Settled e' := by
    intro hsettled
    have htwice := ofText_target hsettled
    rw [htarget] at htwice
    rcases htwice with hkey | hnot
    · rw [hkey] at hback
      exact hback
    · exact hnot (.inr hback)
  rcases mem_keys_overlay hroot (List.mem_map_of_mem he) with hmem | hmem
  · obtain ⟨e', he', htarget⟩ := List.mem_map.mp hmem
    have hsettled : Settled e' :=
      settled_of_mem_settings ((order.environment_perm _).mem_iff.mp he')
    exact absurd hsettled (hunsettled htarget)
  rcases mem_keys_overlay hfile hmem with hmem | hmem
  · obtain ⟨e', he', htarget⟩ := List.mem_map.mp ((order.arranges entries).targets.mem_iff.mp hmem)
    have hnot := hunsettled htarget
    have hkey : KeyPath.ofText e'.1 = .key e'.1 := by
      by_contra hpath
      exact hnot fun h => absurd h hpath
    have hlower : lower e'.1 = e.1 := by
      rw [← htarget, target, hkey]
      rfl
    rw [← hlower]
    exact .ofFile hentries he' hnot
  · cases hmem

/-- Settings loaded with one environment are loaded with every other that has the same variables
related to them, or a variable that names no setting hampers that. -/
theorem load_with_other (h : env.related = env'.related)
    (hstep : InStep tree cwd file env env' order order')
    (hload : load tree cwd file env order = .ok s) :
    load tree cwd file env' order' = .ok s ∨
      ∃ fault, Hampers tree cwd file env env' fault ∧
        load tree cwd file env' order' = .error fault := by
  obtain ⟨root, hroot, copy, hcopy, hfollows⟩ := load_eq_ok_iff_copy.mp hload
  have hnames (n : SettingName) : n.text ∉ env.strays env' :=
    SystemEnvironment.text_notMem_strays n
  rcases collect_with_other h hstep.overlays hroot with
    ⟨root', hroot', hsame⟩ | ⟨fault, hhampers, hroot'⟩
  · rcases hstep.copies with hsettled | hcopies
    · -- the copies are read as what was copied, whatever their orders
      have hfollowsRoot := (load_eq_ok_iff hsettled).mp hload
      obtain ⟨root₁, hroot₁, hfollows₁⟩ := hfollowsRoot
      cases hroot.symm.trans hroot₁
      exact .inl ((load_eq_ok_iff hsettled).mpr
        ⟨root', hroot', fun n => (follows_congr (hnames n) hsame).mp (hfollows₁ n)⟩)
    · -- the copies are made in step
      have hnil : SameBut (env.strays env') (.table []) (.table []) := rfl
      have happart := hcopies root root' hroot hroot'
      obtain ⟨core, hcore, hcopyCore⟩ := overlay_apartFrom_of_ok hnil hcopy
      cases hcopy' : overlay (order'.copying.arrange root'.entries) (.table []) with
      | ok copy' =>
        obtain ⟨core', hcore', hcopyCore'⟩ := overlay_apartFrom_of_ok hnil hcopy'
        rw [happart, hcore'] at hcore
        cases hcore
        have hcopies' : SameBut (env.strays env') copy copy' := hcopyCore.trans hcopyCore'.symm
        exact .inl (load_eq_ok_iff_copy.mpr ⟨root', hroot', copy', hcopy',
          fun n => (follows_congr (hnames n) hcopies').mp (hfollows n)⟩)
      | error fault =>
        obtain ⟨u, rfl⟩ := overlay_error hcopy'
        refine .inr ⟨.underflow u, .undercut ?_ u, ?_⟩
        · rcases overlay_apartFrom_of_error hnil hcopy' with
            ⟨fault', hfault⟩ | ⟨e, he, htarget, hback⟩
          · rw [happart, hfault] at hcore
            cases hcore
          · obtain ⟨e', he', rfl⟩ := (order'.copying.arranges _).mem_iff.mp he
            exact ⟨e'.1, leadsOn_of_countsBack hroot' he' hback, hback, htarget⟩
        · unfold load
          rw [hroot']
          change (overlay (order'.copying.arrange root'.entries) (.table [])).bind _ = _
          rw [hcopy']
          rfl
  · refine .inr ⟨fault, hhampers, ?_⟩
    unfold load
    rw [hroot']
    rfl

/-- Variables that name no setting have no influence on the settings: every run has its like with
each environment that has the same related variables, and runs that are alike load the same. Only
whether settings can be loaded at all such a variable can decide, in two ways: by being no text, and
by going by the key that a path which counts back begins with, so that an index is out of its list.
-/
theorem load_without_unrelated (h : env.related = env'.related) (order : HashOrder) :
    (∃ order', InStep tree cwd file env env' order order') ∧
      ∀ order', InStep tree cwd file env env' order order' →
        (load tree cwd file env order).toOption = (load tree cwd file env' order').toOption ∨
          (∃ s fault, Hampers tree cwd file env env' fault ∧
            load tree cwd file env order = .ok s ∧
            load tree cwd file env' order' = .error fault) ∨
          ∃ s fault, Hampers tree cwd file env' env fault ∧
            load tree cwd file env order = .error fault ∧
            load tree cwd file env' order' = .ok s := by
  refine ⟨exists_inStep h order, fun order' hstep => ?_⟩
  cases hload : load tree cwd file env order with
  | ok s =>
    rcases load_with_other h hstep hload with hload' | ⟨fault, hhampers, hload'⟩
    · rw [hload']
      exact .inl rfl
    · exact .inr (.inl ⟨s, fault, hhampers, rfl, hload'⟩)
  | error fault =>
    cases hload' : load tree cwd file env' order' with
    | error fault' => exact .inl rfl
    | ok s =>
      rcases load_with_other h.symm hstep.symm hload' with hback | ⟨fault', hhampers, hback⟩
      · cases hload.symm.trans hback
      · cases hload.symm.trans hback
        exact .inr (.inr ⟨s, fault, hhampers, rfl, rfl⟩)

/-- A list under a name of no setting stays, or gives way to a number and then a table: either way
the report is to be in JSON. -/
theorem load_without_unrelated_pool :
    let tree : FileTree := ⟨[([Utf8.encode "ctl.toml"], .file (Utf8.encode "pool = [1]\n"))]⟩
    let name := Utf8.encode "/ctl.toml"
    let env := Environment.encoded [("HOME", "/root"), ("IFUSE_CTL_POOL.Size", "2"),
      ("IFUSE_CTL_JSON", "yes")]
    let env' := Environment.encoded [("IFUSE_CTL_POOL", "7"), ("ifuse_ctl_", "nan"),
      ("IFUSE_CTL_POOL.Size", "2"), ("Ifuse_Ctl_JSON ", "no"), ("IFUSE_CTL_JSON", "yes")]
    env.related = env'.related ∧ InStep tree [] (some name) env env' .asListed .asListed ∧
      load tree [] (some name) env .asListed = .ok ⟨none, true, none, none⟩ ∧
      load tree [] (some name) env' .asListed = .ok ⟨none, true, none, none⟩ := by
  intro tree name env env'
  have hsettled : SettledFile tree [] (some name) := settledFile_of_all (by decide +kernel)
  have hrelated : env.related = env'.related := by decide
  have hstep : InStep tree [] (some name) env env' .asListed .asListed := inStep_asListed hrelated
  have hload : load tree [] (some name) env .asListed = .ok ⟨none, true, none, none⟩ :=
    eq_ok_of_toOption (by decide +kernel)
  refine ⟨hrelated, hstep, hload, ?_⟩
  rcases (load_without_unrelated hrelated .asListed).2 .asListed hstep with
    hsame | ⟨s, fault, hhampers, -⟩ | ⟨s, fault, -, hfails, -⟩
  · rw [hload] at hsame
    exact eq_ok_of_toOption hsame.symm
  · -- every variable is text, and no path of a related one counts back
    cases hhampers with
    | noText hvar _ htext =>
      exact absurd htext (SystemEnvironment.text?_ne_none_of_mem_encoded hvar)
    | undercut hcut u =>
      obtain ⟨key, hleads, hback, -⟩ := hcut
      cases hleads with
      | ofVariable hvar hkey =>
        have hforward : ∀ var ∈ env.related, ∀ key ∈ key? var,
            key = "pool.size" ∨ key = "json" := by decide
        rcases hforward _ hvar key hkey with rfl | rfl
        · exact absurd hback (by decide)
        · exact absurd hback (by decide)
      | ofFile hentries he hnot => exact absurd (hsettled _ hentries _ he) hnot
  · cases hload.symm.trans hfails

/-- The last element of a list can be set, until a variable that names no setting puts a number in
the place of the list. -/
theorem load_fails_by_unrelated_pool :
    let tree : FileTree := ⟨[([Utf8.encode "ctl.toml"], .file (Utf8.encode "pool = [1]\n"))]⟩
    let name := Utf8.encode "/ctl.toml"
    let env := Environment.encoded [("IFUSE_CTL_POOL[-1]", "0")]
    let env' := Environment.encoded [("IFUSE_CTL_POOL", "0"), ("IFUSE_CTL_POOL[-1]", "0")]
    env.related = env'.related ∧ InStep tree [] (some name) env env' .asListed .asListed ∧
      load tree [] (some name) env .asListed = .ok initial ∧
      ∃ u, load tree [] (some name) env' .asListed = .error (.underflow u) := by
  intro tree name env env'
  have hrelated : env.related = env'.related := by rfl
  have hstep : InStep tree [] (some name) env env' .asListed .asListed := inStep_asListed hrelated
  have hload : load tree [] (some name) env .asListed = .ok initial :=
    eq_ok_of_toOption (by decide +kernel)
  have hfails : (load tree [] (some name) env' .asListed).toOption = none := by decide +kernel
  refine ⟨hrelated, hstep, hload, ?_⟩
  rcases load_with_other hrelated hstep hload with hload' | ⟨fault, hhampers, hload'⟩
  · rw [hload'] at hfails
    cases hfails
  · cases hhampers with
    | noText hvar _ htext =>
      exact absurd htext (SystemEnvironment.text?_ne_none_of_mem_encoded hvar)
    | undercut _ u => exact ⟨u, hload'⟩

end Settings

end MountControl
