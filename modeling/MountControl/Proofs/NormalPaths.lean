import MountControl.Proofs.WholeReports

namespace MountControl

namespace Path

/-- A component that an absolute form keeps: it is not empty, is not `.` and has no slash. -/
structure IsName (c : Bytes) : Prop where
  ne_nil : c ≠ []
  ne_dot : c ≠ dot
  slash_notMem : slash ∉ c

instance (c : Bytes) : Decidable (IsName c) :=
  decidable_of_iff (c ≠ [] ∧ c ≠ dot ∧ slash ∉ c)
    ⟨fun h => ⟨h.1, h.2.1, h.2.2⟩, fun h => ⟨h.ne_nil, h.ne_dot, h.slash_notMem⟩⟩

/-- A path in normal form: a root of one slash or two, the names with single slashes between them,
and perhaps a slash after the last name. -/
def normal (doubled : Bool) (names : List Bytes) (trailing : Bool) : Path :=
  (if doubled then [slash, slash] else [slash]) ++
    ([slash].intercalate names ++ if trailing && !names.isEmpty then [slash] else [])

def IsNormal (p : Path) : Prop :=
  ∃ doubled names trailing, (∀ c ∈ names, IsName c) ∧ p = normal doubled names trailing

/-- Whether a path can be that of the current directory: it begins with one slash, and its
components are names with single slashes between them. -/
def IsDirectory (p : Path) : Prop :=
  ∃ names, (∀ c ∈ names, IsName c) ∧ p = normal false names false

/-! ## Components -/

theorem isName_of_mem_components {p : Path} {c : Bytes} (h : c ∈ p.components) : IsName c := by
  obtain ⟨hpiece, hkept⟩ := List.mem_filter.mp h
  obtain ⟨hnil, hdot⟩ := of_decide_eq_true hkept
  exact ⟨hnil, hdot, notMem_of_mem_pieces hpiece⟩

theorem components_slash_cons (p : Path) : components (slash :: p) = components p := by
  have hsplit : pieces slash (slash :: p) = [] :: pieces slash p :=
    List.splitOn_append_cons_self_of_not_mem List.not_mem_nil p
  rw [components, hsplit]
  exact List.filter_cons_of_neg (by decide)

theorem components_name {c : Bytes} (hc : IsName c) : components c = [c] := by
  rw [components, pieces, List.splitOn_eq_singleton hc.slash_notMem]
  exact List.filter_cons_of_pos (decide_eq_true ⟨hc.ne_nil, hc.ne_dot⟩)

/-- The first component ends at the first slash. -/
theorem components_append_slash {c : Bytes} (hc : IsName c) (p : Path) :
    components (c ++ slash :: p) = c :: components p := by
  rw [components, pieces, List.splitOn_append_cons_self_of_not_mem hc.slash_notMem]
  change (c :: pieces slash p).filter _ = _
  exact List.filter_cons_of_pos (decide_eq_true ⟨hc.ne_nil, hc.ne_dot⟩)

section Normal

variable {names : List Bytes} (hnames : ∀ c ∈ names, IsName c)

include hnames

/-- Names that are joined by slashes are taken apart again, with or without a slash at the end. -/
theorem components_intercalate (trailing : Bool) : components ([slash].intercalate names ++
    if trailing && !names.isEmpty then [slash] else []) = names := by
  induction names with
  | nil => cases trailing <;> rfl
  | cons c names ih =>
    obtain ⟨hc, hrest⟩ := List.forall_mem_cons.mp hnames
    have hrest := ih hrest
    -- the last name has a slash after it only if one trails
    cases names with
    | nil =>
      rw [List.intercalate_singleton]
      cases trailing with
      | false => simpa using components_name hc
      | true => exact components_append_slash hc []
    | cons c' names =>
      rw [List.intercalate_cons_cons, List.append_assoc, List.append_assoc, List.singleton_append,
        components_append_slash hc]
      exact congrArg (c :: ·) hrest

theorem components_normal (doubled trailing : Bool) :
    (normal doubled names trailing).components = names := by
  have hbody := components_intercalate hnames trailing
  cases doubled with
  | false =>
    rw [normal, if_neg Bool.false_ne_true, List.singleton_append, components_slash_cons, hbody]
  | true =>
    rw [normal, if_pos rfl, List.cons_append, List.singleton_append, components_slash_cons,
      components_slash_cons, hbody]

/-- The names begin with something else than a slash. -/
theorem head?_intercalate (trailing : Bool) : ([slash].intercalate names ++
    if trailing && !names.isEmpty then [slash] else []).head? ≠ some slash := by
  cases names with
  | nil => cases trailing <;> decide
  | cons c names =>
    have hc := hnames c List.mem_cons_self
    obtain ⟨b, bs, rfl⟩ := List.exists_cons_of_ne_nil hc.ne_nil
    have hb : b ≠ slash := fun h => hc.slash_notMem (h ▸ List.mem_cons_self)
    -- what follows the first name does not matter
    obtain ⟨rest, hrest⟩ : ∃ rest, [slash].intercalate ((b :: bs) :: names) = b :: rest := by
      cases names with
      | nil => exact ⟨_, List.intercalate_singleton⟩
      | cons c' names => exact ⟨_, List.intercalate_cons_cons⟩
    rw [hrest, List.cons_append, List.head?_cons]
    exact fun h => hb (Option.some.inj h)

theorem hasDoubleRoot_normal (doubled trailing : Bool) :
    (normal doubled names trailing).hasDoubleRoot = doubled := by
  have hhead := head?_intercalate hnames trailing
  rw [normal]
  generalize [slash].intercalate names ++ _ = body at hhead
  cases body with
  | nil => cases doubled <;> rfl
  | cons b body =>
    have hb : (slash == b) = false := beq_false_of_ne fun h => hhead (congrArg some h.symm)
    cases doubled <;> simp [hasDoubleRoot, List.isPrefixOf, hb]

end Normal

theorem intercalate_concat (names : List Bytes) (c : Bytes) :
    [slash].intercalate (names ++ [c]) =
      if names.isEmpty then c else [slash].intercalate names ++ slash :: c := by
  induction names with
  | nil => exact List.intercalate_singleton
  | cons c' names ih =>
    cases names with
    | nil =>
      rw [List.singleton_append, List.intercalate_cons_cons, List.intercalate_singleton,
        List.intercalate_singleton, List.append_assoc]
      rfl
    | cons c'' names =>
      have hrest : [slash].intercalate (c'' :: (names ++ [c])) =
          [slash].intercalate (c'' :: names) ++ slash :: c := ih
      rw [List.cons_append, List.cons_append, List.intercalate_cons_cons, hrest,
        List.intercalate_cons_cons]
      simp

/-- The names end with something else than a slash. -/
theorem getLast?_intercalate {names : List Bytes} (hnames : ∀ c ∈ names, IsName c)
    (hne : names ≠ []) : ∃ b, ([slash].intercalate names).getLast? = some b ∧ b ≠ slash := by
  obtain ⟨init, c, rfl⟩ := (List.eq_nil_or_concat' names).resolve_left hne
  have hc := hnames c (List.mem_append_right _ List.mem_cons_self)
  have hlast : c.getLast? = some (c.getLast hc.ne_nil) := List.getLast?_eq_some_getLast hc.ne_nil
  refine ⟨c.getLast hc.ne_nil, ?_, fun h => hc.slash_notMem (h ▸ List.getLast_mem hc.ne_nil)⟩
  rw [intercalate_concat]
  split
  · exact hlast
  · rw [List.getLast?_append, List.getLast?_cons, hlast]
    rfl

/-- A normal path ends in a slash if it is a root, or if it has one after its last name. -/
theorem endsInSlash_normal {names : List Bytes} (hnames : ∀ c ∈ names, IsName c)
    (doubled trailing : Bool) :
    (normal doubled names trailing).endsInSlash = (names.isEmpty || trailing) := by
  cases names with
  | nil => cases doubled <;> cases trailing <;> rfl
  | cons c names =>
    obtain ⟨b, hlast, hb⟩ := getLast?_intercalate hnames (List.cons_ne_nil c names)
    rw [endsInSlash, normal, List.getLast?_append, List.getLast?_append, hlast]
    cases trailing with
    | true => rfl
    | false => exact beq_false_of_ne fun h => hb (Option.some.inj h)

/-! ## Resolving -/

section Resolving

variable {cwd p : Path} {names more : List Bytes} {doubled trailing : Bool}

/-- A name is put after the others, with a slash between them if there are any. -/
theorem push_normal (hnames : ∀ c ∈ names, IsName c) (c : Bytes) :
    push (normal doubled names false) c = normal doubled (names ++ [c]) false := by
  have hends := endsInSlash_normal hnames doubled false
  rw [push, hends, normal, normal, intercalate_concat]
  -- only a root ends in a slash already
  cases names with
  | nil => simp
  | cons c' names => simp

/-- Pushing names onto a normal path makes the normal path with all of them. -/
theorem foldl_push_normal (hnames : ∀ c ∈ names, IsName c) (hmore : ∀ c ∈ more, IsName c) :
    more.foldl push (normal doubled names false) = normal doubled (names ++ more) false := by
  -- the induction is on the names to come, and those already there grow with it
  induction more generalizing names with
  | nil => rw [List.append_nil, List.foldl_nil]
  | cons c more ih =>
    obtain ⟨hc, hmore⟩ := List.forall_mem_cons.mp hmore
    have hlonger : ∀ c' ∈ names ++ [c], IsName c' := by
      intro c' hc'
      rcases List.mem_append.mp hc' with hc' | hc'
      · exact hnames c' hc'
      · exact List.mem_singleton.mp hc' ▸ hc
    rw [List.foldl_cons, push_normal hnames, ih hlonger hmore, List.append_assoc]
    rfl

/-- Where the beginning of an absolute form is normal, so is all of it. -/
theorem absolute?_of_base (hp : p ≠ []) (hnames : ∀ c ∈ names, IsName c)
    (hbase : base cwd p = normal doubled names false) :
    absolute? cwd p = some (normal doubled (names ++ p.components) p.endsInSlash) := by
  have hmore : ∀ c ∈ p.components, IsName c := fun c hc => isName_of_mem_components hc
  have hall : ∀ c ∈ names ++ p.components, IsName c := fun c hc =>
    (List.mem_append.mp hc).elim (hnames c) (hmore c)
  rw [absolute?, if_neg hp]
  simp only [hbase, foldl_push_normal hnames hmore, endsInSlash_normal hall, Bool.or_false]
  congr 1
  -- a slash at the end is put back where there is a name before it, and a root has its own
  cases hend : p.endsInSlash <;> cases hempty : (names ++ p.components).isEmpty <;>
    simp [normal, hempty]

theorem base_of_isAbsolute (h : p.isAbsolute = true) :
    base cwd p = normal p.hasDoubleRoot [] false := by
  rw [base, if_pos h]
  cases p.hasDoubleRoot <;> rfl

theorem base_of_not_isAbsolute (h : p.isAbsolute = false) : base cwd p = cwd := by
  rw [base, if_neg (ne_true_of_eq_false h)]

/-- Only an absolute path begins with two slashes. -/
theorem hasDoubleRoot_of_not_isAbsolute (h : p.isAbsolute = false) : p.hasDoubleRoot = false := by
  cases p with
  | nil => rfl
  | cons b p =>
    have hb : (slash == b) = false := by
      apply beq_false_of_ne
      rintro rfl
      exact absurd h (by simp [isAbsolute])
    simp [hasDoubleRoot, List.isPrefixOf, hb]

theorem normal_ne_nil : normal doubled names trailing ≠ [] := by
  cases doubled <;> exact List.cons_ne_nil _ _

theorem isAbsolute_normal : (normal doubled names trailing).isAbsolute = true := by
  cases doubled <;> rfl

/-- What a path is resolved to, part by part. -/
theorem absolute?_eq_normal (hcwd : cwd.IsDirectory) (hp : p ≠ []) :
    absolute? cwd p = some (normal p.hasDoubleRoot
      ((if p.isAbsolute then [] else cwd.components) ++ p.components) p.endsInSlash) := by
  obtain ⟨names, hnames, rfl⟩ := hcwd
  cases habs : p.isAbsolute with
  | true => exact absolute?_of_base hp (List.forall_mem_nil IsName) (base_of_isAbsolute habs)
  | false =>
    -- the root is that of the current directory, which is a single slash
    have hroot := hasDoubleRoot_of_not_isAbsolute habs
    rw [hroot, components_normal hnames]
    exact absolute?_of_base hp hnames (base_of_not_isAbsolute habs)

/-- A normal path is its own absolute form, whatever the current directory. -/
theorem absolute?_normal (hnames : ∀ c ∈ names, IsName c) :
    absolute? cwd (normal doubled names trailing) = some (normal doubled names trailing) := by
  have hbase : base cwd (normal doubled names trailing) =
      normal (normal doubled names trailing).hasDoubleRoot [] false :=
    base_of_isAbsolute isAbsolute_normal
  rw [absolute?_of_base normal_ne_nil (List.forall_mem_nil IsName) hbase,
    hasDoubleRoot_normal hnames, components_normal hnames, endsInSlash_normal hnames]
  congr 1
  cases trailing <;> cases hempty : names.isEmpty <;> simp [normal, hempty]

end Resolving

end Path

/-! ## Mounts -/

/-- A step has to do with one path only: there it opens its mount, and this one it names when the
mount is not available. -/
structure KeepsTo (path : Path) (x : Exchange StepResult) : Prop where
  opened : ∀ p, .opened p ∈ x.events → p = path
  unavailable : ∀ p cause, x.result = .error (.failure (.mountUnavailable p cause)) → p = path

theorem Verdict.unavailable {t : Transport} {s : Step} {shape : Shape} {p : Path}
    {cause : SystemError}
    (v : Verdict t s shape (.error (.failure (.mountUnavailable p cause)))) (hm : s.mount ≠ []) :
    resolveMount t.cwd s.mount = .ok p := by
  cases v with
  | nowhere h => exact absurd h hm
  | unopened hp ho => exact hp
  | completed h ha hr => exact hr.elim

/-- Whatever a step opens or reports is the path that its mount resolves to. -/
theorem Transport.perform_keepsTo {t : Transport} {s : Step} {path : Path}
    (hp : resolveMount t.cwd s.mount = .ok path) : KeepsTo path (t.perform s) := by
  obtain ⟨shape, hevents, v⟩ := t.perform_verdict s
  constructor
  · intro p hmem
    rw [hevents] at hmem
    exact Except.ok.inj ((v.opened_mem hmem).symm.trans hp)
  · intro p cause hresult
    rw [hresult] at v
    exact Except.ok.inj ((v.unavailable (resolveMount_ne_nil hp)).symm.trans hp)

/-- A step with an outcome has opened its mount. -/
theorem Verdict.opened_of_outcome {t : Transport} {s : Step} {shape : Shape} {result : StepResult}
    {path : Path} (v : Verdict t s shape (.ok result))
    (hp : resolveMount t.cwd s.mount = .ok path) :
    .opened path ∈ shape.events := by
  cases v with
  | completed h ha hr =>
    obtain rfl := Except.ok.inj (h.resolved.symm.trans hp)
    exact List.mem_cons_self

/-- An outcome comes from a root that was opened under the resolved path. -/
theorem Transport.opened_of_execute {t : Transport} {driver : Driver} {command : String}
    {mount path : Path} {outcome : Outcome} (hp : resolveMount t.cwd mount = .ok path)
    (h : (t.execute driver command mount).result = .ok outcome) :
    .opened path ∈ (t.execute driver command mount).events := by
  obtain ⟨shape, hevents, v⟩ := t.perform_verdict ⟨mount, driver, .execute command⟩
  have hperform : t.perform ⟨mount, driver, .execute command⟩ =
      (t.execute driver command mount).map .outcome := rfl
  rw [hperform] at hevents v
  rw [Exchange.map] at hevents v
  dsimp only at hevents v
  rw [h] at v
  rw [hevents]
  exact v.opened_of_outcome hp

theorem Launch.Achieves.opened {l : Launch} {i : Invocation} {settings : Settings} {log : LogState}
    {outcome : Outcome} {path : Path} (h : l.Achieves i settings log outcome path) :
    .opened path ∈ l.run.events := by
  rw [h.run_eq, Launch.command_events]
  exact Transport.opened_of_execute h.resolved h.exchanged

/-- Resolving fails on the empty path and on no other. -/
theorem resolveMount_error_iff {cwd mount : Path} {e : ControlError} :
    resolveMount cwd mount = .error e ↔ mount = [] ∧ e = .mountUnavailable [] .emptyPath := by
  constructor
  · exact resolveMount_error
  · rintro ⟨rfl, rfl⟩
    exact resolveMount_nil cwd

theorem resolveMount_of_absolute? {cwd mount path : Path}
    (h : Path.absolute? cwd mount = some path) : resolveMount cwd mount = .ok path := by
  rw [resolveMount, h]

/-- Only the empty path cannot be resolved. Any other is resolved to a normal path: it has the
components of the current directory, if the path is relative, and the path's own after them; it
begins with two slashes just if the path does, and has one at its end just if the path has; and to
resolve it again, from wherever, changes nothing. Under this one path the mount is opened, named
when it is not available, and reported. -/
theorem resolveMount_normal {cwd : Path} (hcwd : cwd.IsDirectory) (mount : Path) :
    (∀ e, resolveMount cwd mount = .error e ↔
      mount = [] ∧ e = .mountUnavailable [] .emptyPath) ∧
    (mount ≠ [] → ∃ path, resolveMount cwd mount = .ok path ∧
      path.IsNormal ∧ path.isAbsolute = true ∧
      path.components = (if mount.isAbsolute then [] else cwd.components) ++ mount.components ∧
      path.hasDoubleRoot = mount.hasDoubleRoot ∧
      (path.components ≠ [] → path.endsInSlash = mount.endsInSlash) ∧
      (∀ cwd', resolveMount cwd' path = .ok path) ∧
      (∀ (t : Transport) (s : Step), t.cwd = cwd → s.mount = mount →
        KeepsTo path (t.perform s)) ∧
      ∀ (l : Launch) i settings log outcome path', l.cwd = cwd → i.mount = mount →
        l.Achieves i settings log outcome path' →
        path' = path ∧ .opened path ∈ l.run.events ∧
          l.run.output =
            (l.writeReport (Report.ofOutcome outcome path)
              (Launch.formatFor settings)).accepted) := by
  refine ⟨fun e => resolveMount_error_iff, ?_⟩
  intro hm
  let names := (if mount.isAbsolute then [] else cwd.components) ++ mount.components
  have hnames : ∀ c ∈ names, Path.IsName c := by
    intro c hc
    rcases List.mem_append.mp hc with hc | hc
    · split at hc
      · exact absurd hc List.not_mem_nil
      · exact Path.isName_of_mem_components hc
    · exact Path.isName_of_mem_components hc
  have hp := resolveMount_of_absolute? (Path.absolute?_eq_normal hcwd hm)
  have hcomponents := Path.components_normal hnames mount.hasDoubleRoot mount.endsInSlash
  have hends := Path.endsInSlash_normal hnames mount.hasDoubleRoot mount.endsInSlash
  refine ⟨_, hp, ⟨_, names, _, hnames, rfl⟩, Path.isAbsolute_normal, hcomponents,
    Path.hasDoubleRoot_normal hnames _ _, ?_, ?_, ?_, ?_⟩
  · intro hne
    rw [hcomponents] at hne
    rw [hends, List.isEmpty_eq_false_iff.mpr hne, Bool.false_or]
  · intro cwd'
    exact resolveMount_of_absolute? (Path.absolute?_normal hnames)
  · rintro t s rfl rfl
    exact Transport.perform_keepsTo hp
  · rintro l i settings log outcome path' rfl rfl h
    obtain rfl := Except.ok.inj (hp.symm.trans h.resolved)
    refine ⟨rfl, h.opened, ?_⟩
    rw [h.run_eq]
    exact (Launch.command_of_written h.exchanged h.resolved).1

/-- A relative path with dots, with a doubled slash and one at the end. -/
theorem resolveMount_normal_dotted :
    let cwd := Utf8.encode "/srv/x"
    let mount := Utf8.encode "./a//../b/./"
    Path.IsDirectory cwd ∧ mount ≠ [] ∧
      ∃ path, resolveMount cwd mount = .ok path ∧ path = Utf8.encode "/srv/x/a/../b/" ∧
        Path.IsNormal path ∧ ∀ cwd', resolveMount cwd' path = .ok path := by
  intro cwd mount
  have hcwd : Path.IsDirectory cwd :=
    ⟨[Utf8.encode "srv", Utf8.encode "x"], by decide, by decide⟩
  have hmount : mount ≠ [] := by decide
  have hpath : resolveMount cwd mount = .ok (Utf8.encode "/srv/x/a/../b/") := by decide
  obtain ⟨path, hp, hnormal, -, -, -, -, hagain, -⟩ := (resolveMount_normal hcwd mount).2 hmount
  exact ⟨hcwd, hmount, path, hp, Except.ok.inj (hp.symm.trans hpath), hnormal, hagain⟩

end MountControl
