/-
# The environment of a harness

`HarnessSession.start` of `app/harness.py` as far as the environment that it spawns the
harness with: the credentials of a user are merged after `DSH_HOME` and over the environment
of the agent, and before the other variables of the server.
-/

import DbtCraft.Agent.ModelConfig

namespace DbtCraft.Python

namespace Environ

variable {env : Environ} {name : String}

/-- `{name: value for name, value in env.items() if value != ""}`. -/
def nonempty (env : Environ) : Environ :=
  ⟨env.vars.filter fun item => item.2 ≠ "", (env.vars.filter_sublist.map Prod.fst).nodup env.nodup⟩

@[simp]
theorem get_nonempty : env.nonempty.get name = (env.get name).filter (· ≠ "") := by
  apply Option.ext
  intro value
  rw [get_eq_some_iff, Option.filter_eq_some_iff, get_eq_some_iff]
  exact List.mem_filter

end Environ

end DbtCraft.Python

namespace DbtCraft.Agent

open DbtCraft.Python

/-- What the server gives to a harness. -/
structure ServerValues where
  dshHome : String
  sessionRoot : String
  dbtRunnerUrl : String
  tokenPath : String
  readyPath : String
  projectId : String

/-- The variables that are set after the credentials. -/
def ServerValues.later (server : ServerValues) : Dict String String :=
  [("DSH_SESSION_ROOT", server.sessionRoot), ("DBT_RUNNER_URL", server.dbtRunnerUrl),
    ("DBT_RUNNER_TOKEN_FILE", server.tokenPath), ("DBT_MCP_READY_FILE", server.readyPath),
    ("DBT_PROJECT_ID", server.projectId)]

theorem ServerValues.nodup_later (server : ServerValues) :
    (server.later.map Prod.fst).Nodup := by
  show (["DSH_SESSION_ROOT", "DBT_RUNNER_URL", "DBT_RUNNER_TOKEN_FILE", "DBT_MCP_READY_FILE",
    "DBT_PROJECT_ID"] : List String).Nodup
  decide

/-- The names of the variables that are set after the credentials. -/
def laterNames : List String :=
  ["DSH_SESSION_ROOT", "DBT_RUNNER_URL", "DBT_RUNNER_TOKEN_FILE", "DBT_MCP_READY_FILE",
    "DBT_PROJECT_ID"]

variable (server : ServerValues) (base : Environ)

/-- `env` of `start`. -/
def spawnEnvironment (credentials : Environ) : Environ :=
  (((base.set "DSH_HOME" server.dshHome).update credentials).update
    ⟨server.later, server.nodup_later⟩).nonempty

/-- The environment of a user without credentials. -/
def serverEnvironment : Environ := spawnEnvironment server base .empty

/-! ## The guarantee -/

/-- The credentials take nothing over: the variables of the server are its own, the variables
that control the process are those of the agent, and only a variable that a route of the user
names is another one than without credentials. -/
structure Guarded (controls : String → Prop) (config : ModelConfig) : Prop where
  own : ∀ name, name = "DSH_HOME" ∨ name ∈ laterNames →
    (spawnEnvironment server base config.credentials).get name =
      (serverEnvironment server base).get name
  controlling : ∀ name, controls name → base.get name ≠ none →
    (spawnEnvironment server base config.credentials).get name =
      (serverEnvironment server base).get name
  named : ∀ name, (spawnEnvironment server base config.credentials).get name ≠
    (serverEnvironment server base).get name → name ∈ config.references

/-- A credential that is not overwritten has the value that the variable has without it, or
its name is no variable of the server, controls no process, and stands in a route. -/
def Harmless (controls : String → Prop) (config : ModelConfig) : Prop :=
  ∀ name secret, config.credentials.get name = some secret → name ∉ laterNames →
    (base.set "DSH_HOME" server.dshHome).get name = some secret ∨
      (name ≠ "DSH_HOME" ∧ ¬ (controls name ∧ base.get name ≠ none) ∧ name ∈ config.references)

/-! ## What is spawned -/

variable {server base} {credentials : Environ} {name : String}

theorem get_spawnEnvironment :
    (spawnEnvironment server base credentials).get name =
      ((Dict.get server.later name).or ((credentials.get name).or
        ((base.set "DSH_HOME" server.dshHome).get name))).filter (· ≠ "") := by
  rw [spawnEnvironment, Environ.get_nonempty, Environ.get_update, Environ.get_update]
  rfl

theorem get_later_ne_none_iff : Dict.get server.later name ≠ none ↔ name ∈ laterNames := by
  apply Iff.intro
  · intro hget
    by_contra hname
    exact hget (Dict.get_of_not_mem hname)
  · intro hname hget
    obtain ⟨item, hitem, rfl⟩ := List.mem_map.mp (show name ∈ server.later.map Prod.fst from hname)
    rw [Dict.get_of_mem server.nodup_later hitem] at hget
    cases hget

/-- What is set after the credentials is what the server sets. -/
theorem get_spawn_of_later (hname : name ∈ laterNames) :
    (spawnEnvironment server base credentials).get name =
      (serverEnvironment server base).get name := by
  obtain ⟨value, hvalue⟩ := Option.ne_none_iff_exists'.mp (get_later_ne_none_iff.mpr hname)
  rw [serverEnvironment, get_spawnEnvironment, get_spawnEnvironment, hvalue, Option.some_or,
    Option.some_or]

/-- What no credential is named as is what the server sets. -/
theorem get_spawn_of_get_none (habsent : credentials.get name = none) :
    (spawnEnvironment server base credentials).get name =
      (serverEnvironment server base).get name := by
  rw [serverEnvironment, get_spawnEnvironment, get_spawnEnvironment, habsent, Environ.get_empty]

/-- A credential that is not overwritten is unseen only where it is what the server has. -/
theorem get_spawn_eq_iff {secret : String} (hname : name ∉ laterNames)
    (hsecret : credentials.get name = some secret) (hnonempty : secret ≠ "") :
    (spawnEnvironment server base credentials).get name =
        (serverEnvironment server base).get name ↔
      (base.set "DSH_HOME" server.dshHome).get name = some secret := by
  have hlater : Dict.get server.later name = none := by
    by_contra hget
    exact hname (get_later_ne_none_iff.mp hget)
  rw [serverEnvironment, get_spawnEnvironment, get_spawnEnvironment, hlater, hsecret,
    Environ.get_empty, Option.none_or, Option.none_or, Option.some_or, Option.none_or,
    Option.filter_some_pos (by simpa using hnonempty)]
  apply Iff.intro
  · exact fun hsame => (Option.filter_eq_some_iff.mp hsame.symm).1
  · intro hsame
    rw [hsame, Option.filter_some_pos (by simpa using hnonempty)]

/-- Variables that a process and its loaders read. -/
def processControlling : List String :=
  ["PATH", "HOME", "NODE_OPTIONS", "LD_PRELOAD", "PYTHONPATH"]

/-- A codec of ASCII letters that knows one document. -/
def sampleCodec : Codec where
  document header :=
    if header = "eyJQQVRIIjoiL3RtcC9ldmlsIn0=" then
      some (.dict [(.str "PATH", .str "/tmp/evil")])
    else none
  shown _ := ""
  isAlnum := Char.isAlphanum
  isAlpha := Char.isAlpha
  isUpper := Char.isUpper
  isCased := Char.isAlpha

end DbtCraft.Agent
