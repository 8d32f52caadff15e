import MountControl.CommandLine.Invocation
import MountControl.Control.Error
import MountControl.Proofs.CopiedSettings

namespace MountControl

def Assignment.name : Assignment → SettingName
  | timeoutMs _ => .timeoutMs
  | json _ => .json
  | logLevel _ => .logLevel
  | logFormat _ => .logFormat

namespace Settings

open SettingValue (Entries Alike)

variable {tree : FileTree} {cwd name : Path} {env : SystemEnvironment} {order : HashOrder}
variable {s s' ofFile ofEnv : Settings}

def get (s : Settings) : SettingName → Assignment
  | .timeoutMs => .timeoutMs s.timeoutMs
  | .json => .json s.json
  | .logLevel => .logLevel s.logLevel
  | .logFormat => .logFormat s.logFormat

theorem get_assign (s : Settings) (a : Assignment) (n : SettingName) :
    (s.assign a).get n = if n = a.name then a else s.get n := by
  cases a <;> cases n <;> rfl

def pick (f : SettingName → Settings) : Settings where
  timeoutMs := (f .timeoutMs).timeoutMs
  json := (f .json).json
  logLevel := (f .logLevel).logLevel
  logFormat := (f .logFormat).logFormat

theorem get_pick (f : SettingName → Settings) (n : SettingName) : (pick f).get n = (f n).get n := by
  cases n <;> rfl

theorem eq_of_get (h : ∀ n, s.get n = s'.get n) : s = s' := by
  have ht := h .timeoutMs
  have hj := h .json
  have hl := h .logLevel
  have hf := h .logFormat
  cases s
  cases s'
  cases ht
  cases hj
  cases hl
  cases hf
  rfl

/-- What is read under the name of a setting is a value of that setting. -/
theorem readAssignment_text {n : SettingName} {v : SettingValue} {read : Option Assignment}
    (h : readAssignment n.text v = .ok read) : ∃ a : Assignment, read = some a ∧ a.name = n := by
  rw [readAssignment, SettingName.lookup_byText_iff.mpr rfl] at h
  cases n with
  | timeoutMs | json | logLevel | logFormat =>
    obtain ⟨x, -, rfl⟩ := map_eq_ok_iff.mp h
    exact ⟨_, rfl, rfl⟩

/-- A key that names no setting is left alone, whatever its value. -/
theorem readAssignment_other {key : String} (hkey : ∀ n : SettingName, key ≠ n.text)
    (v : SettingValue) : readAssignment key v = .ok none := by
  have hnone : SettingName.byText.lookup key = none := by
    apply Option.eq_none_iff_forall_not_mem.mpr
    intro n hn
    exact hkey n (SettingName.lookup_byText_iff.mp hn)
  rw [readAssignment, hnone]

def Follows (s : Settings) (es : Entries) (s' : Settings) (n : SettingName) : Prop :=
  match es.lookup n.text with
  | some v => readAssignment n.text v = .ok (some (s'.get n))
  | none => s'.get n = s.get n

theorem follows_nil {n : SettingName} : Follows s [] s' n ↔ s'.get n = s.get n :=
  Iff.rfl

theorem follows_cons_self {n : SettingName} {v : SettingValue} {es : Entries} :
    Follows s ((n.text, v) :: es) s' n ↔ readAssignment n.text v = .ok (some (s'.get n)) := by
  rw [Follows, List.lookup_cons, beq_self_eq_true]

theorem follows_cons_of_ne {n : SettingName} {key : String} (hkey : n.text ≠ key) {v : SettingValue}
    {es : Entries} : Follows s ((key, v) :: es) s' n ↔ Follows s es s' n := by
  rw [Follows, List.lookup_cons, beq_false_of_ne hkey]
  rfl

theorem follows_assign_of_ne {a : Assignment} {n : SettingName} (hn : n ≠ a.name) {es : Entries} :
    Follows (s.assign a) es s' n ↔ Follows s es s' n := by
  rw [Follows, Follows, get_assign, if_neg hn]

/-- A table with different keys is read setting by setting. -/
theorem ofEntries_eq_ok_iff {es : Entries} (hd : es.Distinct) :
    ofEntries s es = .ok s' ↔ ∀ n, Follows s es s' n := by
  induction es generalizing s with
  | nil =>
    simp only [ofEntries, follows_nil, Except.ok.injEq]
    constructor
    · rintro rfl n
      rfl
    · intro h
      exact eq_of_get fun n => (h n).symm
  | cons e es ih =>
    obtain ⟨key, v⟩ := e
    obtain ⟨hnot, hrest⟩ := List.nodup_cons.mp hd
    rw [ofEntries]
    -- the first entry decides its own setting for good, since no later entry has its key
    by_cases hkey : ∃ m : SettingName, key = m.text
    · obtain ⟨m, rfl⟩ := hkey
      have hlookup : es.lookup m.text = none := SettingValue.lookup_eq_none_of_not_mem hnot
      cases hread : readAssignment m.text v with
      | error fault =>
        refine iff_of_false nofun fun h => ?_
        have hm := follows_cons_self.mp (h m)
        rw [hread] at hm
        cases hm
      | ok read =>
        obtain ⟨a, rfl, rfl⟩ := readAssignment_text hread
        refine (ih hrest).trans (forall_congr' fun n => ?_)
        by_cases hn : n = a.name
        · subst hn
          rw [follows_cons_self, hread, Follows, hlookup, get_assign, if_pos rfl, Except.ok.injEq,
            Option.some.injEq]
          exact eq_comm
        · have htext : n.text ≠ a.name.text := fun h => hn (SettingName.text_injective _ _ h)
          rw [follows_assign_of_ne hn, follows_cons_of_ne htext]
    · have hother : ∀ n : SettingName, n.text ≠ key := fun n h => hkey ⟨n, h.symm⟩
      rw [readAssignment_other fun n h => hother n h.symm]
      refine (ih hrest).trans (forall_congr' fun n => ?_)
      rw [follows_cons_of_ne (hother n)]

/-- Where no key comes twice, the order of the entries has no part in what a setting comes to. -/
theorem follows_perm {es es' : Entries} (h : es.Perm es') (hd : es'.Distinct) {n : SettingName} :
    Follows s es s' n ↔ Follows s es' s' n := by
  rw [Follows, Follows, SettingValue.lookup_perm h hd]

/-- Tables with values that are read alike come to the same settings. -/
theorem follows_alike {es es' : Entries} {n : SettingName}
    (h : Option.Rel Alike (es.lookup n.text) (es'.lookup n.text)) :
    Follows s es s' n ↔ Follows s es' s' n := by
  rw [Follows, Follows]
  generalize es.lookup n.text = found at h ⊢
  generalize es'.lookup n.text = found' at h ⊢
  cases h with
  | some hv =>
    dsimp only
    rw [readAssignment_alike n.text hv]
  | none => exact Iff.rfl

/-- The environment has entries just if all of its variables are text. -/
theorem exists_variableEntries_iff {P : Entries → Prop} :
    (∃ es, variableEntries env = .ok es ∧ P es) ↔
      ∃ texts, env.texts? = some texts ∧ P texts.settings := by
  unfold variableEntries
  cases env.texts? with
  | none => simp
  | some texts => simp

theorem variableEntries_encoded (env : Environment) :
    variableEntries env.encoded = .ok env.settings := by
  rw [variableEntries, SystemEnvironment.texts?_encoded]

/-- No key of a file becomes a path that matters in lower case only. -/
def SettledFile (tree : FileTree) (cwd : Path) (file : Option Path) : Prop :=
  ∀ entries, fileEntries tree cwd file = .ok entries → ∀ e ∈ entries, Settled e

theorem settledFile_none : SettledFile tree cwd none := by
  intro entries hentries e he
  cases hentries
  cases he

theorem settledFile_of_all
    (h : (readFile tree cwd name).toOption.all (·.all (Settled ·)) = true) :
    SettledFile tree cwd (some name) := by
  intro entries hentries e he
  have hread : readFile tree cwd name = .ok entries := hentries
  rw [hread] at h
  exact of_decide_eq_true (List.all_eq_true.mp h e he)

/-- What collecting goes through: the entries of the file, the table they make, and the variables as
text. -/
theorem collect_eq_ok_iff {file : Option Path} {root : SettingValue} :
    collect tree cwd file env order = .ok root ↔
      ∃ entries, fileEntries tree cwd file = .ok entries ∧
        ∃ fromFile, overlay (order.arrange entries) (.table []) = .ok fromFile ∧
          ∃ texts, env.texts? = some texts ∧
            overlay (order.environment texts.settings) fromFile = .ok root := by
  unfold collect
  simp only [bind_eq_ok_iff, exists_variableEntries_iff]

/-- Settings are read from the copy of what is collected, in whatever order. -/
theorem load_eq_ok_iff_copy {file : Option Path} : load tree cwd file env order = .ok s ↔
    ∃ root, collect tree cwd file env order = .ok root ∧
      ∃ copy, overlay (order.copying.arrange root.entries) (.table []) = .ok copy ∧
        ∀ n, Follows initial copy.entries s n := by
  unfold load
  simp only [bind_eq_ok_iff]
  refine exists_congr fun root => and_congr_right fun _ =>
    exists_congr fun copy => and_congr_right fun hcopy => ?_
  -- a table that is written key by key, from nothing, has no key twice
  have hd := distinct_overlay hcopy SettingValue.distinct_nil
  have hperm := order.settings_perm copy.entries
  have hd' : Entries.Distinct (order.settings copy.entries) := (hperm.map _).nodup_iff.mpr hd
  rw [mapError_eq_ok_iff, ofEntries_eq_ok_iff hd']
  exact forall_congr' fun n => follows_perm hperm hd

/-- Settings are read from a copy as from the table itself. -/
theorem Copyable.follows_copy {root : SettingValue} (h : Copyable root) (order : HashOrder) :
    ∃ copy, Settings.overlay (order.arrange root.entries) (.table []) = .ok copy ∧
      ∀ s n, Follows initial copy.entries s n ↔ Follows initial root.entries s n := by
  obtain ⟨copy, hcopy, halike⟩ := h.exists_copy order
  exact ⟨copy, hcopy, fun s n => (follows_alike (halike n)).symm⟩

theorem copyable_of_collect {file : Option Path} {root : SettingValue}
    (hsettled : SettledFile tree cwd file) (h : collect tree cwd file env order = .ok root) :
    Copyable root := by
  obtain ⟨entries, hentries, fromFile, hfile, texts, -, henv⟩ := collect_eq_ok_iff.mp h
  have hes : ∀ e ∈ order.arrange entries, Settled e := by
    intro e he
    exact settled_of_arranges (order.arranges entries) (hsettled entries hentries) he
  have hfromFile : Copyable fromFile := copyable_nil.overlay hes hfile
  apply hfromFile.overlay ?_ henv
  intro e he
  exact settled_of_mem_settings ((order.environment_perm _).mem_iff.mp he)

/-- Where no key of the file becomes a path that matters in lower case only, the settings are those
of the collected table. -/
theorem load_eq_ok_iff {file : Option Path} (hsettled : SettledFile tree cwd file) :
    load tree cwd file env order = .ok s ↔
      ∃ root, collect tree cwd file env order = .ok root ∧
        ∀ n, Follows initial root.entries s n := by
  rw [load_eq_ok_iff_copy]
  refine exists_congr fun root => and_congr_right fun hroot => ?_
  obtain ⟨copy, hcopy, hfollows⟩ :=
    (copyable_of_collect hsettled hroot).follows_copy order.copying
  constructor
  · rintro ⟨copy', hcopy', h⟩ n
    cases hcopy.symm.trans hcopy'
    exact (hfollows s n).mp (h n)
  · intro h
    exact ⟨copy, hcopy, fun n => (hfollows s n).mpr (h n)⟩

def GivenIn (entries : Entries) (n : SettingName) : Prop :=
  n.text ∈ entries.map target

/-- A setting that neither a file nor a variable gives is what it is at first. -/
theorem get_of_not_givenIn {entries : Entries} {fromFile : SettingValue} {n : SettingName}
    (hfile : overlay (order.arrange entries) (.table []) = .ok fromFile)
    (h : Follows initial fromFile.entries ofFile n) (hn : ¬ GivenIn entries n) :
    ofFile.get n = initial.get n := by
  have hkey : n.text ∉ (order.arrange entries).map target :=
    fun hmem => hn ((order.arranges entries).targets.mem_iff.mp hmem)
  have hlookup : fromFile.entries.lookup n.text = none :=
    lookup_overlay_of_unmentioned hfile hkey
  rwa [Follows, hlookup] at h

end Settings

namespace SystemEnvironment

def Sets (env : SystemEnvironment) (n : SettingName) : Prop :=
  ∃ var ∈ env, key? var = some n.text

def NamesSettings (env : SystemEnvironment) : Prop :=
  ∀ var ∈ env, ∀ key ∈ key? var, key ∈ SettingName.all.map SettingName.text

variable {env : SystemEnvironment} {texts : Environment}

/-- An environment sets a name just if one of its variables has the key of it. -/
theorem sets_iff {n : SettingName} : env.Sets n ↔ some n.text ∈ env.map key? :=
  List.mem_map.symm

theorem namesSettings_iff : env.NamesSettings ↔
    ∀ key, some key ∈ env.map key? → key ∈ SettingName.all.map SettingName.text := by
  constructor
  · intro h key hkey
    obtain ⟨var, hvar, hvarKey⟩ := List.mem_map.mp hkey
    exact h var hvar key hvarKey
  · intro h var hvar key hkey
    apply h key
    rw [← Option.mem_def.mp hkey]
    exact List.mem_map_of_mem hvar

/-- Among the entries of an environment a name is missing just if no variable sets it. -/
theorem lookup_settings_eq_none_iff (h : env.texts? = some texts) {n : SettingName} :
    texts.settings.lookup n.text = none ↔ ¬ env.Sets n := by
  rw [Environment.lookup_settings, Option.map_eq_none_iff, List.find?_eq_none, sets_iff,
    map_key?_of_texts? h]
  simp only [List.mem_map, List.mem_reverse, decide_eq_true_eq, not_exists, not_and]

/-- Where all keys of an environment are names of settings, its entries are plain. -/
theorem isPlain_of_mem_settings (h : env.texts? = some texts) (hnames : env.NamesSettings)
    {e : String × SettingValue} (he : e ∈ texts.settings) : Settings.IsPlain e := by
  obtain ⟨text, htext, hkey, hvalue⟩ := Environment.mem_settings he
  have hmem : some e.1 ∈ env.map key? := by
    rw [map_key?_of_texts? h, ← hkey]
    exact List.mem_map_of_mem htext
  obtain ⟨n, -, hn⟩ := List.mem_map.mp (namesSettings_iff.mp hnames e.1 hmem)
  rw [Settings.IsPlain, ← hn]
  exact ⟨n.lower_text, n.ofText_text, _, _, hvalue⟩

end SystemEnvironment

namespace Settings

open SettingValue (Entries Alike)

variable {tree : FileTree} {cwd name : Path} {env : SystemEnvironment}
variable {order order' order'' : HashOrder} {s ofFile ofEnv : Settings}

/-- Settings in which the environment goes before the entries of a file, and the file before the
initial settings, one setting at a time. -/
structure Layered (env : SystemEnvironment) (entries : Entries) (ofEnv ofFile s : Settings) :
    Prop where
  of_environment : ∀ n, env.Sets n → s.get n = ofEnv.get n
  of_file : ∀ n, ¬ env.Sets n → GivenIn entries n → s.get n = ofFile.get n
  of_neither : ∀ n, ¬ env.Sets n → ¬ GivenIn entries n → s.get n = initial.get n

def runLimit (i : Invocation) (s : Settings) : Option Duration :=
  (s.withOverrides i.timeoutMs i.json).timeout?.map .ofMilliseconds

def runLog (i : Invocation) (s : Settings) : LogOptions :=
  let s := s.withOverrides i.timeoutMs i.json
  i.logging.orElse s.logLevel s.logFormat

/-- In a run the flags of the command line go before the loaded settings, and these before what is
taken where nothing is said. -/
structure Governs (i : Invocation) (s : Settings) : Prop where
  limit : ∀ d, runLimit i s = some d ↔
    ∃ ms, (i.timeoutMs = some ms ∨ i.timeoutMs = none ∧ s.timeoutMs = some ms) ∧ ms ≠ 0 ∧
      d = .ofMilliseconds ms.toNat
  positive : ∀ d, runLimit i s = some d → 0 < d.nanoseconds
  json : (s.withOverrides i.timeoutMs i.json).json = true ↔ i.json = true ∨ s.json = true
  logLevel : ∀ level, (runLog i s).effectiveLevel = level ↔
    i.logging.level = some level ∨
      i.logging.level = none ∧ (s.logLevel = some level ∨ s.logLevel = none ∧ level = .warn)
  logFormat : ∀ format, (runLog i s).effectiveFormat = format ↔
    i.logging.format = some format ∨
      i.logging.format = none ∧
        (s.logFormat = some format ∨ s.logFormat = none ∧ format = .plaintext)
  logFile : (runLog i s).file = i.logging.file

/-- A time limit of zero is none. -/
theorem timeout?_eq_some_iff {limit : Nat} :
    s.timeout? = some limit ↔ ∃ ms, s.timeoutMs = some ms ∧ ms ≠ 0 ∧ limit = ms.toNat := by
  unfold timeout?
  cases s.timeoutMs with
  | none => simp
  | some ms =>
    by_cases hms : ms = 0
    · simp [hms]
    · simp [hms, eq_comm]

theorem orElse_eq_some_iff {α : Type} {flag under : Option α} {a : α} :
    (flag <|> under) = some a ↔ flag = some a ∨ flag = none ∧ under = some a := by
  cases flag <;> simp

/-- The flag wins, then what is under it, then the default. -/
theorem getD_orElse_eq_iff {α : Type} {flag under : Option α} {a b : α} :
    (flag <|> under).getD b = a ↔
      flag = some a ∨ flag = none ∧ (under = some a ∨ under = none ∧ a = b) := by
  cases flag <;> cases under <;> simp [eq_comm]

/-- A run has the limit of its flag, or that of the settings if there is no flag, unless it is zero.
-/
theorem runLimit_eq_some_iff {i : Invocation} {d : Duration} : runLimit i s = some d ↔
    ∃ ms, (i.timeoutMs = some ms ∨ i.timeoutMs = none ∧ s.timeoutMs = some ms) ∧ ms ≠ 0 ∧
      d = .ofMilliseconds ms.toNat := by
  simp only [runLimit, Option.map_eq_some_iff, timeout?_eq_some_iff, withOverrides,
    orElse_eq_some_iff]
  constructor
  · rintro ⟨_, ⟨ms, hms, h0, rfl⟩, rfl⟩
    exact ⟨ms, hms, h0, rfl⟩
  · rintro ⟨ms, hms, h0, rfl⟩
    exact ⟨_, ⟨ms, hms, h0, rfl⟩, rfl⟩

theorem runLimit_positive {i : Invocation} {d : Duration} (h : runLimit i s = some d) :
    0 < d.nanoseconds := by
  obtain ⟨ms, -, h0, rfl⟩ := runLimit_eq_some_iff.mp h
  have hpos : ms.toNat ≠ 0 := fun hzero => h0 (UInt64.toNat_inj.mp hzero)
  exact Nat.mul_pos (Nat.pos_of_ne_zero hpos) (by decide)

theorem governs (i : Invocation) (s : Settings) : Governs i s where
  limit d := runLimit_eq_some_iff
  positive d := runLimit_positive
  json := by
    rw [withOverrides, Bool.or_eq_true]
    exact or_comm
  logLevel level := getD_orElse_eq_iff
  logFormat format := getD_orElse_eq_iff
  logFile := rfl

/-- Settings that are read where the environment hides the entries of a file. -/
theorem follows_of_hidden {fromFile fromEnv es : Entries} {n : SettingName}
    (hfile : Follows initial fromFile ofFile n) (henv : Follows initial fromEnv ofEnv n)
    (hhides : es.lookup n.text = (fromEnv.lookup n.text).or (fromFile.lookup n.text))
    (hs : s.get n = if (fromEnv.lookup n.text).isSome then ofEnv.get n else ofFile.get n) :
    Follows initial es s n := by
  rw [Follows] at henv hfile ⊢
  rw [hs, hhides]
  cases hlookup : fromEnv.lookup n.text with
  | none => exact hfile
  | some v =>
    rw [hlookup] at henv
    exact henv

/-- It makes no difference which of two orders a file is gone through in: they are the same for its
tables, or no entry whose key matters leads where another one does. -/
def AgreeOnFile (tree : FileTree) (cwd name : Path) (order order' : HashOrder) : Prop :=
  order.file = order'.file ∨ ∀ entries, readFile tree cwd name = .ok entries → Orderless entries

/-- Variables that name settings only can be laid over every table, in every order. -/
theorem exists_overlay_environment {texts : Environment} (order : HashOrder)
    (hplain : ∀ e ∈ texts.settings, IsPlain e) (root : SettingValue) :
    ∃ root', overlay (order.environment texts.settings) root = .ok root' ∧
      ∀ k, root'.entries.lookup k = (texts.settings.lookup k).or (root.entries.lookup k) := by
  have hperm := order.environment_perm texts.settings
  have hd := texts.distinct_settings
  have hd' : Entries.Distinct (order.environment texts.settings) := (hperm.map _).nodup_iff.mpr hd
  have hplain' : ∀ e ∈ order.environment texts.settings, IsPlain e :=
    fun e he => hplain e (hperm.mem_iff.mp he)
  obtain ⟨root', hok, hlookup⟩ := overlay_plain hplain' hd' root
  refine ⟨root', hok, fun k => ?_⟩
  rw [hlookup, SettingValue.lookup_perm hperm hd]

theorem load_file_eq_ok_iff (hsettled : SettledFile tree cwd (some name)) :
    load tree cwd (some name) [] order = .ok s ↔
    ∃ entries, readFile tree cwd name = .ok entries ∧
      ∃ fromFile, overlay (order.arrange entries) (.table []) = .ok fromFile ∧
        ∀ n, Follows initial fromFile.entries s n := by
  have hnil : order.environment [] = [] := (order.environment_perm []).eq_nil
  rw [load_eq_ok_iff hsettled]
  simp only [collect_eq_ok_iff]
  constructor
  · rintro ⟨root, ⟨entries, hentries, fromFile, hfile, texts, htexts, hroot⟩, hfollows⟩
    cases htexts
    have hoverlay : overlay (order.environment []) fromFile = .ok root := hroot
    rw [hnil] at hoverlay
    cases hoverlay
    exact ⟨entries, hentries, root, hfile, hfollows⟩
  · rintro ⟨entries, hentries, fromFile, hfile, hfollows⟩
    refine ⟨fromFile, ⟨entries, hentries, fromFile, hfile, [], rfl, ?_⟩, hfollows⟩
    change overlay (order.environment []) fromFile = .ok fromFile
    rw [hnil]
    rfl

theorem load_environment_eq_ok (h : load tree cwd none env order = .ok s)
    (hnames : env.NamesSettings) :
    ∃ texts, env.texts? = some texts ∧ ∀ n, Follows initial texts.settings s n := by
  obtain ⟨root, hcollect, hfollows⟩ := (load_eq_ok_iff settledFile_none).mp h
  obtain ⟨entries, hentries, fromFile, hfromFile, texts, htexts, hroot⟩ :=
    collect_eq_ok_iff.mp hcollect
  cases hentries
  have hnil : order.arrange [] = [] := List.Perm.eq_nil (order.arranges [])
  rw [hnil] at hfromFile
  cases hfromFile
  -- the environment alone makes the table of its own entries
  have hplain : ∀ e ∈ texts.settings, IsPlain e :=
    fun e he => SystemEnvironment.isPlain_of_mem_settings htexts hnames he
  obtain ⟨root', hroot', hlookup⟩ := exists_overlay_environment order hplain (.table [])
  cases hroot.symm.trans hroot'
  refine ⟨texts, htexts, fun n => ?_⟩
  have hfollowsN := hfollows n
  have hsame : root.entries.lookup n.text = texts.settings.lookup n.text :=
    (hlookup n.text).trans Option.or_none
  rwa [Follows, hsame] at hfollowsN

/-- Where the order makes no difference, a file loads the same. -/
theorem load_file_of_agree (hsettled : SettledFile tree cwd (some name))
    (h : AgreeOnFile tree cwd name order order')
    (hload : load tree cwd (some name) [] order = .ok s) :
    load tree cwd (some name) [] order' = .ok s := by
  obtain ⟨entries, hentries, fromFile, hfromFile, hfollows⟩ :=
    (load_file_eq_ok_iff hsettled).mp hload
  rcases h with hsame | horderless
  · rw [HashOrder.arrange, hsame] at hfromFile
    exact (load_file_eq_ok_iff hsettled).mpr ⟨entries, hentries, fromFile, hfromFile, hfollows⟩
  · obtain ⟨fromFile', hfromFile', halike⟩ := overlay_orderless (order.arranges entries)
      (order'.arranges entries) (horderless entries hentries) hfromFile
    exact (load_file_eq_ok_iff hsettled).mpr ⟨entries, hentries, fromFile', hfromFile',
      fun n => (follows_alike (halike n)).mp (hfollows n)⟩

/-- Where a file and an environment can each be loaded by itself, they can be loaded together, and
the result is layered, so long as no key of the file becomes a path that matters in lower case only,
and the file is not gone through in an order that makes a difference. In a run, the flags of the
command line go before it. -/
theorem load_layered (hfile : load tree cwd (some name) [] order = .ok ofFile)
    (henv : load tree cwd none env order' = .ok ofEnv) (hnames : env.NamesSettings)
    (hsettled : SettledFile tree cwd (some name))
    (hagree : AgreeOnFile tree cwd name order order'') (i : Invocation) :
    ∃ entries s, readFile tree cwd name = .ok entries ∧
      load tree cwd (some name) env order'' = .ok s ∧ Layered env entries ofEnv ofFile s ∧
        Governs i s := by
  obtain ⟨entries, hentries, fromFile, hfromFile, hofFile⟩ :=
    (load_file_eq_ok_iff hsettled).mp (load_file_of_agree hsettled hagree hfile)
  obtain ⟨texts, htexts, hofEnv⟩ := load_environment_eq_ok henv hnames
  have hplain : ∀ e ∈ texts.settings, IsPlain e :=
    fun e he => SystemEnvironment.isPlain_of_mem_settings htexts hnames he
  obtain ⟨root, hroot, hlookup⟩ := exists_overlay_environment order'' hplain fromFile
  -- a setting comes from the environment just where that has an entry of its name
  let s := pick fun n => if (texts.settings.lookup n.text).isSome then ofEnv else ofFile
  have hget (n : SettingName) : s.get n =
      if (texts.settings.lookup n.text).isSome then ofEnv.get n else ofFile.get n := by
    rw [get_pick]
    split <;> rfl
  have hload : load tree cwd (some name) env order'' = .ok s :=
    (load_eq_ok_iff hsettled).mpr
      ⟨root, collect_eq_ok_iff.mpr ⟨entries, hentries, fromFile, hfromFile, texts, htexts, hroot⟩,
        fun n => follows_of_hidden (hofFile n) (hofEnv n) (hlookup n.text) (hget n)⟩
  have hunset {n : SettingName} (hn : ¬ env.Sets n) : s.get n = ofFile.get n := by
    rw [hget, (SystemEnvironment.lookup_settings_eq_none_iff htexts).mpr hn]
    rfl
  refine ⟨entries, s, hentries, hload, ⟨?_, ?_, ?_⟩, governs i s⟩
  · intro n hn
    have hsome : texts.settings.lookup n.text ≠ none :=
      fun hnone => (SystemEnvironment.lookup_settings_eq_none_iff htexts).mp hnone hn
    rw [hget, if_pos (Option.isSome_iff_ne_none.mpr hsome)]
  · intro n hn _
    exact hunset hn
  · intro n hn hgiven
    rw [hunset hn]
    exact get_of_not_givenIn hfromFile (hofFile n) hgiven

/-- A file that asks for a limit and a report in JSON is overruled in both by the environment, which
says zero and false, and the run has no limit. By itself it is gone through from its end here. -/
theorem load_layered_under_contrary_environment :
    let tree : FileTree :=
      ⟨[([Utf8.encode "ctl.toml"], .file (Utf8.encode "JSON=true\ntimeout_ms=250"))]⟩
    let name := Utf8.encode "/ctl"
    let texts : Environment :=
      [("IFUSE_CTL_JSON", "false"), ("HOME", "/"), ("ifuse_ctl_Timeout_MS", "0")]
    let env := texts.encoded
    let i : Invocation :=
      ⟨"reset_cache", name, [], none, false, some name, ⟨some .debug, none, none⟩⟩
    load tree [] (some name) [] .reversed = .ok ⟨some 250, true, none, none⟩ ∧
      load tree [] none env = .ok ⟨some 0, false, none, none⟩ ∧ env.NamesSettings ∧
      SettledFile tree [] (some name) ∧ AgreeOnFile tree [] name .reversed .asListed ∧
      ∃ s, load tree [] (some name) env = .ok s ∧ s.get .json = .json false ∧
        runLimit i s = none := by
  intro tree name texts env i
  have hfile : load tree [] (some name) [] .reversed = .ok ⟨some 250, true, none, none⟩ :=
    eq_ok_of_toOption (by decide +kernel)
  have henv : load tree [] none env = .ok ⟨some 0, false, none, none⟩ := by
    rw [load, collect, variableEntries_encoded texts]
    exact eq_ok_of_toOption (by decide +kernel)
  have hkeys : env.map SystemEnvironment.key? = [some "json", none, some "timeout_ms"] :=
    (SystemEnvironment.map_key?_of_texts? (SystemEnvironment.texts?_encoded texts)).trans rfl
  have hnames : env.NamesSettings := by
    rw [SystemEnvironment.namesSettings_iff, hkeys]
    simp [SettingName.all, SettingName.text]
  have hsettled : SettledFile tree [] (some name) := settledFile_of_all (by decide +kernel)
  have hagree : AgreeOnFile tree [] name .reversed .asListed := by
    apply Or.inr
    intro entries hentries
    have horderless : (readFile tree [] name).toOption.all (decide <| Orderless ·) = true := by
      decide +kernel
    rw [hentries] at horderless
    exact of_decide_eq_true horderless
  obtain ⟨entries, s, -, hload, hlayers, hgoverns⟩ :=
    load_layered hfile henv hnames hsettled hagree i
  have hsets (n : SettingName) (hn : some n.text ∈ [some "json", none, some "timeout_ms"]) :
      env.Sets n := by
    rwa [SystemEnvironment.sets_iff, hkeys]
  have hjson := hlayers.of_environment .json (hsets .json (by decide))
  have hlimit := hlayers.of_environment .timeoutMs (hsets .timeoutMs (by decide))
  refine ⟨hfile, henv, hnames, hsettled, hagree, s, hload, hjson,
    Option.eq_none_iff_forall_ne_some.mpr ?_⟩
  intro d hd
  obtain ⟨ms, hms | ⟨-, hms⟩, h0, -⟩ := (hgoverns.limit d).mp hd
  · cases hms
  · have hzero : s.timeoutMs = some 0 := Assignment.timeoutMs.inj hlimit
    exact h0 (Option.some.inj (hms.symm.trans hzero))

/-- Two keys of a file that lead to one setting: the last one counts, so that with an environment
that names another setting the file can say something else than alone, and nothing where a truth
value cannot be made a table. Nothing can be loaded either where a list, or the copy of it, is
written after an index into it that counts back. A key that is a path in lower case only is written
where it leads when the table is copied, so that it can go before the environment. -/
theorem load_not_layered_in_another_order :
    let file (content : String) : FileTree :=
      ⟨[([Utf8.encode "ctl.toml"], .file (Utf8.encode content))]⟩
    let twice := file "json=1\nJSON=0"
    let longer := file "json=1\n\"json.x\"=1"
    let last := file "pool=[1]\n\"pool[-1]\"=0"
    let degrees := file "\"log_level.debug.\u212A\"=1"
    let lastDegrees := file "pool=[1]\n\"pool[-1].\u212A\"=0"
    let name := Utf8.encode "/ctl.toml"
    let limit := Environment.encoded [("IFUSE_CTL_TIMEOUT_MS", "5")]
    let level := Environment.encoded [("IFUSE_CTL_LOG_LEVEL", "info")]
    limit.NamesSettings ∧ ¬ limit.Sets .json ∧ level.NamesSettings ∧ level.Sets .logLevel ∧
      (∀ tree, load tree [] none limit .asListed = .ok ⟨some 5, false, none, none⟩) ∧
      (∀ tree, load tree [] none level .asListed = .ok ⟨none, false, some .info, none⟩) ∧
      (load twice [] (some name) [] .reversed = .ok ⟨none, true, none, none⟩ ∧
        load twice [] (some name) limit .asListed = .ok ⟨some 5, false, none, none⟩) ∧
      (load longer [] (some name) [] .reversed = .ok ⟨none, true, none, none⟩ ∧
        ∀ s, load longer [] (some name) limit .asListed ≠ .ok s) ∧
      (load last [] (some name) [] .asListed = .ok initial ∧
        ∀ s, load last [] (some name) limit .reversed ≠ .ok s) ∧
      (load degrees [] (some name) [] .reversed = .ok ⟨none, false, some .debug, none⟩ ∧
        load degrees [] (some name) level .reversed = .ok ⟨none, false, some .debug, none⟩) ∧
      load lastDegrees [] (some name) [] .asListed = .ok initial ∧
        ∀ s, load lastDegrees [] (some name) limit .reversedCopy ≠ .ok s := by
  intro file twice longer last degrees lastDegrees name limit level
  have hlimit : limit.map SystemEnvironment.key? = [some "timeout_ms"] :=
    (SystemEnvironment.map_key?_of_texts? (SystemEnvironment.texts?_encoded _)).trans rfl
  have hlevel : level.map SystemEnvironment.key? = [some "log_level"] :=
    (SystemEnvironment.map_key?_of_texts? (SystemEnvironment.texts?_encoded _)).trans rfl
  have hlimitLoad : load ⟨[]⟩ [] none limit .asListed = .ok ⟨some 5, false, none, none⟩ :=
    eq_ok_of_toOption (by decide +kernel)
  have hlevelLoad : load ⟨[]⟩ [] none level .asListed = .ok ⟨none, false, some .info, none⟩ :=
    eq_ok_of_toOption (by decide +kernel)
  have hfails {tree : FileTree} {order : HashOrder}
      (h : (load tree [] (some name) limit order).toOption = none) :
      ∀ s, load tree [] (some name) limit order ≠ .ok s := by
    intro s hs
    rw [hs] at h
    cases h
  refine ⟨?_, ?_, ?_, ?_, fun _ => hlimitLoad, fun _ => hlevelLoad,
    ⟨eq_ok_of_toOption ?_, eq_ok_of_toOption ?_⟩, ⟨eq_ok_of_toOption ?_, hfails ?_⟩,
    ⟨eq_ok_of_toOption ?_, hfails ?_⟩, ⟨eq_ok_of_toOption ?_, eq_ok_of_toOption ?_⟩,
    eq_ok_of_toOption ?_, hfails ?_⟩
  · rw [SystemEnvironment.namesSettings_iff, hlimit]
    simp [SettingName.all, SettingName.text]
  · rw [SystemEnvironment.sets_iff, hlimit]
    decide
  · rw [SystemEnvironment.namesSettings_iff, hlevel]
    simp [SettingName.all, SettingName.text]
  · rw [SystemEnvironment.sets_iff, hlevel]
    decide
  all_goals decide +kernel

end Settings

end MountControl
