/-
# Lakes of ingest jobs

The lake of a job is sent to the ingest subprocess as JSON. What comes out there is the
lake that was sent, but for the fields that the configuration does not carry.
-/

import DbtCraft.Ingest.Lakehouse
import DbtCraft.Python.Json

namespace DbtCraft.Ingest.Lakehouse

open DbtCraft.Python

variable {lake : LakeRef}

/-- A job configuration names no key twice. -/
theorem nodup_asJobConfig (lake : LakeRef) : (lake.asJobConfig.map Prod.fst).Nodup := by
  show ["catalog_url", "data_path", "metadata_schema", "mode", "ducklake_name"].Nodup
  decide

/-- What stands in a configuration that answers as the one of a lake. -/
theorem fromJobConfig_of_get_eq {config : Dict String String}
    (hconfig : ∀ key, config.get key = lake.asJobConfig.get key) :
    LakeRef.fromJobConfig config =
      .ok { lake with
        mode := if lake.mode = "" then modeManaged else lake.mode, maintained := true } := by
  have hmode : LakeRef.modeOf config = if lake.mode = "" then modeManaged else lake.mode := by
    unfold LakeRef.modeOf
    rw [hconfig]
    rfl
  unfold LakeRef.fromJobConfig LakeRef.required
  rw [hconfig, hconfig, hconfig, hmode]
  rfl

/-- The lake that the subprocess has. -/
def received (codec : Json.Codec) (lake : LakeRef) : Except Raised LakeRef :=
  match codec.decode (codec.encode lake.asJobConfig) with
  | some config => LakeRef.fromJobConfig config
  | none => .error (.valueError "configuration is not valid JSON")

theorem received_eq (codec : Json.Codec) (lake : LakeRef) :
    received codec lake =
      .ok { lake with
        mode := if lake.mode = "" then modeManaged else lake.mode, maintained := true } := by
  obtain ⟨config, hdecode, hget⟩ := codec.get_decode lake.asJobConfig (nodup_asJobConfig lake)
  unfold received
  rw [hdecode]
  exact fromJobConfig_of_get_eq hget

/-- The lake survives the way to the subprocess, with or without JSON in between, and is
refused there by the operations that refuse it here. -/
def Survives (lake : LakeRef) : Prop :=
  LakeRef.fromJobConfig lake.asJobConfig = .ok lake ∧ ∀ codec : Json.Codec,
    received codec lake = .ok lake ∧ ∀ other, received codec lake = .ok other →
      (∀ days, maintainGuard other days = maintainGuard lake days) ∧
        destroyGuard other = destroyGuard lake

/-- A lake survives exactly when it is maintained and names its mode. -/
theorem survives_iff (lake : LakeRef) : Survives lake ↔ lake.maintained = true ∧ lake.mode ≠ "" := by
  have hfields : (Except.ok { lake with
        mode := if lake.mode = "" then modeManaged else lake.mode, maintained := true } :
          Except Raised LakeRef) = .ok lake ↔ lake.maintained = true ∧ lake.mode ≠ "" := by
    obtain ⟨catalogUrl, dataPath, metadataSchema, mode, maintained⟩ := lake
    by_cases hmode : mode = ""
    · simp [hmode, modeManaged]
    · simp [hmode, eq_comm]
  constructor
  · intro hsurvives
    have hdirect := hsurvives.1
    rw [fromJobConfig_of_get_eq fun _ => rfl] at hdirect
    exact hfields.mp hdirect
  · intro hlake
    constructor
    · rw [fromJobConfig_of_get_eq fun _ => rfl]
      exact hfields.mpr hlake
    · intro codec
      have hsame : received codec lake = .ok lake := (received_eq codec lake).trans (hfields.mpr hlake)
      apply And.intro hsame
      intro other hother
      rw [Except.ok.inj (hother.symm.trans hsame)]
      exact ⟨fun _ => rfl, rfl⟩

/-- The lake of somebody else is maintained by the subprocess. -/
theorem not_survives_of_unmaintained : ¬ ∀ lake, Survives lake := by
  intro hclaim
  have hlake := (hclaim ⟨"postgresql://u@catalog:5432/lake", "s3://company-lake/warehouse/",
    "company_lake", modeExternal, false⟩).1
  exact absurd hlake (by decide)

end DbtCraft.Ingest.Lakehouse
