import Corx.Server.ConfigLoader
import Corx.Server.ReloadRuns
import Corx.Server.Startup

/-!
# Reloading without a file

A reload whose configuration file cannot be read. A regular file that is found and cannot be read
is an error, and the live snapshot stays. Where no regular file is found, because there is nothing
at the path, or a directory, or it is out of sight, the layer is empty. What is left then are the
built-in defaults with the environment on top, and `reload_unread_iff` says exactly when these
replace the running policies: where they are valid, keep every frozen field, and compile.
-/

namespace Corx

variable {Cell Value : Type} {gov : Governor Cell}
  {regexSet : List Str → Except Str RateLimiter.RegexSet} {fig : Figment Value}
  {sys : HostSystem} {overridePath : Option Str} {path : Str} {tls : Except Str Unit}
  {p : Process Cell} {config : Config} {a : Attempt}

/-- A configuration that a reload would swap in: it has no errors, keeps what is frozen, and
compiles over the live snapshot. -/
structure Installs (regexSet : List Str → Except Str RateLimiter.RegexSet) (isFile : Str → Bool)
    (tls : Except Str Unit) (p : Process Cell) (config : Config) : Prop where
  valid : (config.validateFull isFile).errors = []
  frozen : p.handle.assertImmutable config = .ok ()
  compiles : CompilesOver regexSet tls (some p.live) config

/-- The path that is given, or else the one in `CORX_CONFIG`. -/
def Names (sys : HostSystem) (overridePath : Option Str) (path : Str) : Prop :=
  overridePath = some path ∨
    overridePath = none ∧ sys.var CORX_CONFIG = some path ∧ path ≠ []

/-- The configuration that is left without a file. -/
def withoutFile (fig : Figment Value) (sys : HostSystem) : Except Str Config :=
  fig.extract (fig.defaults.merge (envLayer fig sys))

/-- A reload fails and changes nothing exactly unless its source yields a configuration that it
swaps in. -/
theorem reload_fails_iff :
    (∃ err, p.reload gov regexSet a = (.error err, p)) ↔
      ∀ config, a.source = .ok config → ¬ Installs regexSet a.isFile a.tls p config := by
  obtain ⟨err, heq⟩ | ⟨config, live, heap, hload, hfrozen, hbuild, heq⟩ :=
    Process.reload_spec gov regexSet p a
  · refine iff_of_true ⟨err, heq⟩ fun config hsource hinstalls => ?_
    -- every step of a reload succeeds on such a configuration
    have hload : a.load = .ok config := Attempt.load_eq_ok_iff.mpr ⟨hsource, hinstalls.valid⟩
    have hcompiled : ∃ built,
        Snapshot.buildFrom gov regexSet a.tls config (some p.live) p.heap = .ok built :=
      exists_buildFrom_iff.mpr hinstalls.compiles
    obtain ⟨built, hbuild⟩ := hcompiled
    rw [Process.reload, hload] at heq
    dsimp only at heq
    rw [hinstalls.frozen] at heq
    dsimp only at heq
    rw [hbuild] at heq
    cases (Prod.mk.inj heq).1
  · refine iff_of_false ?_ fun hnone => ?_
    · rintro ⟨err, herr⟩
      rw [heq] at herr
      cases (Prod.mk.inj herr).1
    · obtain ⟨hsource, hvalid⟩ := Attempt.load_eq_ok_iff.mp hload
      exact hnone config hsource
        { valid := hvalid
          frozen := hfrozen
          compiles := exists_buildFrom_iff.mp ⟨(live, heap), hbuild⟩ }

/-- The file that is named is the one that is loaded. -/
theorem loadRaw_of_names (h : Names sys overridePath path) :
    loadRaw fig sys overridePath =
      match tomlFile fig sys path with
      | .error err => .error err
      | .ok file => fig.extract ((fig.defaults.merge file).merge (envLayer fig sys)) := by
  rcases h with rfl | ⟨rfl, hvar, hne⟩
  · rfl
  · have hdiscover : discoverConfigPath sys = some path := by
      rw [discoverConfigPath, hvar, Option.filter_some]
      cases path with
      | nil => exact absurd rfl hne
      | cons => rfl
    rewrite [loadRaw, hdiscover]
    rfl

/-- No file that is looked for at the path can be read. -/
def Unread (sys : HostSystem) (path : Str) : Prop :=
  ∀ file ∈ sys.candidates path, sys.isFile file = true → ∀ text, sys.read file ≠ .ok text

/-- Without the text of its file, a load yields what is left without a file, or fails on a file
that is found. -/
theorem loadRaw_eq_ok_iff_of_unread (hnamed : Names sys overridePath path)
    (hunread : Unread sys path) :
    loadRaw fig sys overridePath = .ok config ↔
      (∀ file ∈ sys.candidates path, sys.isFile file = false) ∧
        withoutFile fig sys = .ok config := by
  rw [loadRaw_of_names hnamed, tomlFile]
  cases hfound : (sys.candidates path).find? sys.isFile with
  | none =>
    have hnone : ∀ file ∈ sys.candidates path, sys.isFile file = false := fun file hmem =>
      eq_false_of_ne_true (List.find?_eq_none.mp hfound file hmem)
    rw [withoutFile]
    exact (and_iff_right hnone).symm
  | some file =>
    have hmem := List.mem_of_find?_eq_some hfound
    have hfile := List.find?_some hfound
    have hnot : ¬ ∀ file ∈ sys.candidates path, sys.isFile file = false := fun hnone => by
      rw [hnone file hmem] at hfile
      cases hfile
    cases hread : sys.read file with
    | error err => simp [hnot, hread]
    | ok text => exact absurd hread (hunread file hmem hfile text)

/-- A reload whose file is not read fails and leaves the process as it is, exactly if a regular file
is found, or what is left without a file is not a configuration that the reload would swap in. -/
theorem reload_unread_iff {Cell Value : Type} (gov : Governor Cell)
    (regexSet : List Str → Except Str RateLimiter.RegexSet) (fig : Figment Value)
    (p : Process Cell) (tls : Except Str Unit) {sys : HostSystem} {overridePath : Option Str}
    {path : Str} (hnamed : Names sys overridePath path)
    (hunread : Unread sys path) :
    (∃ err, p.reload gov regexSet (sys.attempt fig overridePath tls) = (.error err, p)) ↔
      (∃ file ∈ sys.candidates path, sys.isFile file = true) ∨
        ∀ config, withoutFile fig sys = .ok config →
          ¬ Installs regexSet sys.isFile tls p config := by
  rw [reload_fails_iff]
  constructor
  · intro hnone
    by_cases hmissing : ∀ file ∈ sys.candidates path, sys.isFile file = false
    · exact .inr fun config hleft =>
        hnone config ((loadRaw_eq_ok_iff_of_unread hnamed hunread).mpr ⟨hmissing, hleft⟩)
    · obtain ⟨file, hmem, hfile⟩ := not_forall₂.mp hmissing
      exact .inl ⟨file, hmem, eq_true_of_ne_false hfile⟩
  · rintro h config hsource
    obtain ⟨hmissing, hleft⟩ := (loadRaw_eq_ok_iff_of_unread hnamed hunread).mp hsource
    rcases h with ⟨file, hmem, hfile⟩ | hnone
    · rw [hmissing file hmem] at hfile
      cases hfile
    · exact hnone config hleft

/-! ## A deleted file -/

/-- A process that was started with a list of denied hosts. -/
def denyingProcess : Process (Option Instant) :=
  (Process.start RateLimiter.Governor.gcra (fun _ => .ok fun _ => false) (.ok ())
    { Config.default "0.2.0" with
      target :=
        { TargetConfig.default with
          mode := .denylist
          hosts := ["blocked.test"] } }).toOption.get (by decide +kernel)

/-- A system without files, and without variables of the proxy. -/
def bareSystem : HostSystem where
  env := []
  dirs := ["/srv", ""]
  isFile _ := false
  read _ := .error "No such file or directory"
  relative _ _ := rfl

/-- The equivalence for the system without files. -/
theorem reload_unread_iff_bareSystem :
    (∃ err, denyingProcess.reload RateLimiter.Governor.gcra (fun _ => .ok fun _ => false)
      (bareSystem.attempt emptyFilesFigment (some IMAGE_CONFIG) (.ok ())) =
        (.error err, denyingProcess)) ↔
      (∃ file ∈ bareSystem.candidates IMAGE_CONFIG, bareSystem.isFile file = true) ∨
        ∀ config, withoutFile emptyFilesFigment bareSystem = .ok config →
          ¬ Installs (fun _ => .ok fun _ => false) bareSystem.isFile (.ok ()) denyingProcess
            config :=
  reload_unread_iff RateLimiter.Governor.gcra (fun _ => .ok fun _ => false) emptyFilesFigment
    denyingProcess (.ok ()) (.inl rfl) (fun _ _ hfile => by cases hfile)

/-- A reload after the file was deleted succeeds, and the denied hosts are denied no more. -/
theorem reload_of_deleted_file :
    (∀ file ∈ bareSystem.candidates IMAGE_CONFIG, bareSystem.isFile file = false) ∧
    denyingProcess.live.config.target.hosts = ["blocked.test"] ∧
    (denyingProcess.reload RateLimiter.Governor.gcra (fun _ => .ok fun _ => false)
      (bareSystem.attempt emptyFilesFigment (some IMAGE_CONFIG) (.ok ()))).1 = .ok () ∧
    (denyingProcess.reload RateLimiter.Governor.gcra (fun _ => .ok fun _ => false)
      (bareSystem.attempt emptyFilesFigment (some IMAGE_CONFIG) (.ok ()))).2.live.config =
        Config.default "0.2.0" := by
  decide +kernel

end Corx
