import Corx.Base.Layers
import Corx.Server.Reload

/-!
# Configuration loader

The configuration is put together from the built-in defaults, a TOML file and the environment
variables with the prefix `CORX_`, each layer over the one before, and is then extracted and
validated. The layers, TOML and the extraction are `figment`'s and `serde`'s; `Figment` is what
the code relies on.

`CORX_CONFIG`, which names the file, has the prefix as well and becomes the key `config`, which no
configuration has. So nothing loads while it is set, whatever the other layers hold
(`load_ne_ok_of_var`).
-/

namespace Corx

/-- The fields of `Config`. -/
def CONFIG_FIELDS : List Str :=
  ["server", "limits", "cors", "security", "ssrf", "target", "forwarded", "rate_limit",
    "circuit_breaker", "upstream", "observability"]

/-- The providers of `figment`, and the extraction of a `Config`. The values in a layer are of a
type of their own. -/
structure Figment (Value : Type) where
  /-- `Serialized::defaults(Config::default())`. -/
  defaults : Layer Str Value
  /-- The layer of the text of a TOML file. -/
  toml : Str → Except Str (Layer Str Value)
  /-- The setting that the text of an environment variable holds. -/
  envValue : Str → Setting Str Value
  /-- `Figment::extract::<Config>`. -/
  extract : Layer Str Value → Except Str Config
  /-- `deny_unknown_fields`: a key that is not a field of `Config` is rejected. -/
  unknown_field : ∀ layer, (∃ key ∈ layer.keys, key ∉ CONFIG_FIELDS) →
    ∃ err, extract layer = .error err

/-- What a process finds around it: its environment variables, and the files. -/
structure HostSystem where
  env : List (Str × Str)
  /-- The working directory and those above it, from the inside out. -/
  dirs : List Str
  /-- `Path::is_file`: a regular file that the process can see. What is missing, a directory, or
  below a directory that cannot be searched is none. -/
  isFile : Str → Bool
  /-- `std::fs::read_to_string`. -/
  read : Str → Except Str Str
  /-- A relative path is one below the working directory. -/
  relative : ∀ path, path.head? ≠ some '/' →
    isFile path = dirs.head?.any fun dir => isFile (dir ++ '/' :: path)

namespace HostSystem

/-- `std::env::var`. -/
def var (sys : HostSystem) (name : Str) : Option Str :=
  sys.env.lookup name

/-- The same system, but without an environment variable. -/
def unset (sys : HostSystem) (name : Str) : HostSystem :=
  { sys with env := sys.env.filter fun binding => binding.1 ≠ name }

/-- Where `Toml::file` looks for a file: at an absolute path, and for a relative one in the
working directory and in all above it. -/
def candidates (sys : HostSystem) (path : Str) : List Str :=
  if path.head? = some '/' then [path] else sys.dirs.map fun dir => dir ++ '/' :: path

end HostSystem

/-- The variable that names the configuration file. -/
def CORX_CONFIG : Str := "CORX_CONFIG"

/-- The configuration file that is used where none is given. -/
def discoverConfigPath (sys : HostSystem) : Option Str :=
  match (sys.var CORX_CONFIG).filter fun fromEnv => !fromEnv.isEmpty with
  | some fromEnv => some fromEnv
  | none => (["corx.toml", "/etc/corx/config.toml"] : List Str).find? sys.isFile

/-- The components of a key: `__`, and a dot, separate them. -/
def splitKey : Str → List Str
  | '_' :: '_' :: rest => [] :: splitKey rest
  | '.' :: rest => [] :: splitKey rest
  | c :: rest =>
    match splitKey rest with
    | [] => [[c]]
    | component :: components => (c :: component) :: components
  | [] => [[]]

/-- The path of keys of an environment variable, where it has the prefix `CORX_` in any letter
case. A variable with an empty component is ignored. -/
def envPath (name : Str) : Option (Str × List Str) :=
  let pre : Str := "CORX_"
  let key := Str.trim name
  if Str.eqIgnoreAsciiCase (key.take pre.length) pre then
    match splitKey (Str.toAsciiLowercase (key.drop pre.length)) with
    | component :: components =>
      if (component :: components).any List.isEmpty then none else some (component, components)
    | [] => none
  else none

variable {Value : Type} (fig : Figment Value)

/-- The layer of one environment variable. -/
def envEntry (binding : Str × Str) : Layer Str Value :=
  match envPath binding.1 with
  | some (key, path) => Layer.nest key path (fig.envValue binding.2)
  | none => []

/-- `Env::prefixed("CORX_").split("__")`. -/
def envLayer (sys : HostSystem) : Layer Str Value :=
  sys.env.foldl (fun layer binding => layer.merge (envEntry fig binding)) []

/-- `Toml::file`: the first file that is found is read, and without one the layer is empty. -/
def tomlFile (sys : HostSystem) (path : Str) : Except Str (Layer Str Value) :=
  match (sys.candidates path).find? sys.isFile with
  | none => .ok []
  | some file =>
    match sys.read file with
    | .error err => .error err
    | .ok text => fig.toml text

/-- Load the layered configuration without validating it. -/
def loadRaw (sys : HostSystem) (overridePath : Option Str) : Except Str Config :=
  let path := match overridePath with
    | some path => some path
    | none => discoverConfigPath sys
  match path with
  | none => fig.extract (fig.defaults.merge (envLayer fig sys))
  | some path =>
    match tomlFile fig sys path with
    | .error err => .error err
    -- the environment wins over the file, and the file over the defaults
    | .ok file => fig.extract ((fig.defaults.merge file).merge (envLayer fig sys))

/-- A reload that reads its configuration from the system. -/
def HostSystem.attempt (sys : HostSystem) (overridePath : Option Str) (tls : Except Str Unit) :
    Attempt where
  source := loadRaw fig sys overridePath
  isFile := sys.isFile
  tls := tls

/-- Load the layered configuration and validate it. The TLS verifier has no part in it. -/
def load (sys : HostSystem) (overridePath : Option Str) : Except ReloadError Config :=
  (sys.attempt fig overridePath (.ok ())).load

/-! ## What a load yields -/

section

variable {fig} {sys : HostSystem} {overridePath : Option Str} {config : Config}

/-- An attempt loads a configuration that its source yields and that has no errors. -/
theorem Attempt.load_eq_ok_iff {a : Attempt} :
    a.load = .ok config ↔ a.source = .ok config ∧ (config.validateFull a.isFile).errors = [] := by
  unfold Attempt.load
  cases a.source with
  | error err => simp
  | ok loaded =>
    unfold Config.validate
    dsimp only
    rw [Except.ok.injEq]
    cases herrors : (loaded.validateFull a.isFile).errors with
    | nil =>
      rw [Except.ok.injEq]
      constructor
      · rintro rfl
        exact ⟨rfl, herrors⟩
      · exact fun h => h.1
    | cons err errs =>
      constructor
      · intro h
        cases h
      · rintro ⟨rfl, hnone⟩
        rw [herrors] at hnone
        cases hnone

/-- The variable that names the file becomes the key `config`. -/
theorem envPath_corxConfig : envPath CORX_CONFIG = some (("config" : Str), []) := by
  decide

/-- The keys of the environment are the first keys of its variables. -/
theorem mem_keys_envLayer {binding : Str × Str} {key : Str} {path : List Str}
    (hmem : binding ∈ sys.env) (hpath : envPath binding.1 = some (key, path)) :
    key ∈ (envLayer fig sys).keys := by
  refine Layer.mem_keys_foldl_merge.mpr (.inr ⟨binding, hmem, ?_⟩)
  rw [envEntry, hpath]
  exact Layer.keys_nest path ▸ List.mem_cons_self

/-- A variable that is set is one of the environment's. -/
theorem mem_env_of_var {name value : Str} (h : sys.var name = some value) :
    (name, value) ∈ sys.env := by
  unfold HostSystem.var at h
  generalize sys.env = env at h ⊢
  induction env with
  | nil => cases h
  | cons binding env ih =>
    rw [List.lookup_cons] at h
    split at h
    next hname =>
      obtain rfl := Option.some.inj h
      obtain rfl := beq_iff_eq.mp hname
      exact List.mem_cons_self
    next => exact List.mem_cons_of_mem _ (ih h)

/-- With the environment on top, a key that no configuration has is rejected. -/
theorem extract_merge_envLayer {value : Str} (h : sys.var CORX_CONFIG = some value)
    (layer : Layer Str Value) :
    ∃ err, fig.extract (layer.merge (envLayer fig sys)) = .error err := by
  refine fig.unknown_field _ ⟨"config", Layer.mem_keys_merge.mpr (.inr ?_), by decide⟩
  exact mem_keys_envLayer (mem_env_of_var h) envPath_corxConfig

/-- Nothing loads while `CORX_CONFIG` is set. -/
theorem loadRaw_of_var {value : Str} (h : sys.var CORX_CONFIG = some value) :
    ∃ err, loadRaw fig sys overridePath = .error err := by
  unfold loadRaw
  dsimp only
  split
  next => exact extract_merge_envLayer h _
  next path _ =>
    cases tomlFile fig sys path with
    | error err => exact ⟨err, rfl⟩
    | ok file => exact extract_merge_envLayer h _

/-- Nothing loads while `CORX_CONFIG` is set. -/
theorem load_ne_ok_of_var {value : Str} (h : sys.var CORX_CONFIG = some value) :
    load fig sys overridePath ≠ .ok config := by
  intro hload
  have hraw : ∃ err, loadRaw fig sys overridePath = .error err := loadRaw_of_var h
  obtain ⟨err, herr⟩ := hraw
  have hsource := (Attempt.load_eq_ok_iff.mp hload).1
  rw [HostSystem.attempt, herr] at hsource
  cases hsource

/-- The defaults, then the file, and then the environment without `CORX_CONFIG` describe a
configuration without errors. -/
def LayersDescribe (fig : Figment Value) (sys : HostSystem) (path : Str) (config : Config) : Prop :=
  ∃ file, tomlFile fig sys path = .ok file ∧
    fig.extract ((fig.defaults.merge file).merge (envLayer fig (sys.unset CORX_CONFIG))) =
      .ok config ∧
    (config.validateFull sys.isFile).errors = []

/-- While `CORX_CONFIG` names a file, loading yields what the layers describe exactly if they
describe nothing: it always fails. -/
theorem load_iff_layersDescribe {Value : Type} (fig : Figment Value) {sys : HostSystem}
    {path : Str} (hvar : sys.var CORX_CONFIG = some path) :
    (∀ overridePath, overridePath = none ∨ overridePath = some path →
      ∀ config, load fig sys overridePath = .ok config ↔ LayersDescribe fig sys path config) ↔
      ∀ config, ¬ LayersDescribe fig sys path config := by
  constructor
  · intro hagree config hdescribe
    exact load_ne_ok_of_var hvar ((hagree none (.inl rfl) config).mpr hdescribe)
  · intro hnone overridePath _ config
    exact iff_of_false (load_ne_ok_of_var hvar) (hnone config)

end

/-! ## A sample system -/

/-- A loader that reads empty files, and takes every layer whose keys are fields for the
defaults. -/
def emptyFilesFigment : Figment Str where
  defaults := CONFIG_FIELDS.map fun field => (field, .table [])
  toml text := if text.isEmpty then .ok [] else .error "expected an empty document"
  envValue := .value
  extract layer :=
    if layer.keys.all CONFIG_FIELDS.contains then .ok (Config.default "0.2.0")
    else .error "unknown field"
  unknown_field := by
    rintro layer ⟨key, hmem, hunknown⟩
    refine ⟨_, if_neg fun hall => hunknown ?_⟩
    exact List.contains_iff_mem.mp (List.all_eq_true.mp hall key hmem)

/-- The path of the image's configuration file. -/
def IMAGE_CONFIG : Str := "/etc/corx/config.toml"

/-- The container image: the file is there, without a setting, and `CORX_CONFIG` names it. -/
def containerImage : HostSystem where
  env := [(CORX_CONFIG, IMAGE_CONFIG)]
  dirs := ["/srv", ""]
  isFile path := path = IMAGE_CONFIG
  read path := if path = IMAGE_CONFIG then .ok [] else .error "No such file or directory"
  relative path hpath := by
    have hrelative : path ≠ IMAGE_CONFIG := by
      rintro rfl
      exact hpath rfl
    have hbelow : "/srv".toList ++ '/' :: path ≠ IMAGE_CONFIG := by
      intro h
      cases (List.cons.inj (List.cons.inj h).2).1
    exact (decide_eq_false hrelative).trans (decide_eq_false hbelow).symm

/-- The layers of the container image describe the default configuration. -/
theorem layersDescribe_containerImage :
    LayersDescribe emptyFilesFigment containerImage IMAGE_CONFIG (Config.default "0.2.0") :=
  ⟨[], rfl, by decide +kernel, by decide +kernel⟩

/-- The equivalence for the container image. -/
theorem load_iff_layersDescribe_containerImage :
    (∀ overridePath, overridePath = none ∨ overridePath = some IMAGE_CONFIG →
      ∀ config, load emptyFilesFigment containerImage overridePath = .ok config ↔
        LayersDescribe emptyFilesFigment containerImage IMAGE_CONFIG config) ↔
      ∀ config, ¬ LayersDescribe emptyFilesFigment containerImage IMAGE_CONFIG config :=
  load_iff_layersDescribe emptyFilesFigment (by decide)

/-- In the container image nothing loads, neither by discovery nor by the path given, though its
layers describe the default configuration. -/
theorem containerImage_does_not_load :
    LayersDescribe emptyFilesFigment containerImage IMAGE_CONFIG (Config.default "0.2.0") ∧
    load emptyFilesFigment containerImage none = .error (.load "unknown field") ∧
    load emptyFilesFigment containerImage (some IMAGE_CONFIG) = .error (.load "unknown field") :=
  ⟨layersDescribe_containerImage, by decide +kernel, by decide +kernel⟩

end Corx
