import BrokerExec.Config.Layers
import BrokerExec.Lib.Except

/-!
# What a load refuses with (`config/config.cpp`)

* **`load_fails`** — every refusal of a load is a validation error.
-/

namespace BrokerExec.Config

open BrokerExec.Errors (Error makeError)
open BrokerExec.Steps (Fails)

section

variable {α : Type} {P : Error → Prop} {table : Table} {env : EnvLookup} {f : Field}

theorem fails_overlay {file : Result α} {value : Option Bytes} {read : Bytes → Result α}
    (hfile : Fails P file) (hread : ∀ text, Fails P (read text)) :
    Fails P (overlay file value read) := by
  refine hfile.bind fun out => ?_
  cases value with
  | none => exact .ok out
  | some text => exact hread text

theorem fails_fileLayer {out : α} {read : Node → Result α} (hread : ∀ node, Fails P (read node)) :
    Fails P (fileLayer table f out read) := by
  unfold fileLayer
  cases nodeAt table f with
  | none => exact .ok out
  | some node => exact hread node

variable (hP : ∀ message, P (makeError .validation message))

include hP

theorem fails_applyText (reason : Bytes) : Fails P (applyText reason table env f) := by
  refine fails_overlay (fails_fileLayer fun node => ?_) fun text => .ok _
  cases node <;> first | exact .ok _ | exact .error (hP _)

theorem fails_applyString (out : Bytes) : Fails P (applyString table env f out) :=
  (fails_applyText hP _).bind fun _ => .ok _

theorem fails_applyInt64 (out : Int64) : Fails P (applyInt64 table env f out) := by
  refine fails_overlay (fails_fileLayer fun node => ?_) fun text => ?_
  · cases node <;> first | exact .ok _ | exact .error (hP _)
  · cases fromChars text with
    | none => exact .error (hP _)
    | some value => exact .ok value

theorem fails_applyPath (out : Bytes) : Fails P (applyPath table env f out) := by
  refine (fails_applyText hP _).bind fun raw => ?_
  cases raw with
  | none => exact .ok out
  | some raw =>
    dsimp only
    split_ifs
    · exact .error (hP _)
    · exact .ok raw

theorem fails_applyStringList (out : List Bytes) : Fails P (applyStringList table env f out) := by
  refine fails_overlay (fails_fileLayer fun node => ?_) fun text => .ok _
  cases node with
  | array elements =>
    refine Fails.mapM fun element => ?_
    cases element <;> first | exact .ok _ | exact .error (hP _)
  | _ => exact .error (hP _)

theorem fails_applyNamed {parse : Bytes → Option α} {reason : Bytes} {out : α} :
    Fails P (applyNamed parse reason table env f out) := by
  refine (fails_applyText hP _).bind fun raw => ?_
  cases raw with
  | none => exact .ok out
  | some raw =>
    dsimp only
    cases parse raw with
    | none => exact .error (hP _)
    | some value => exact .ok value

theorem fails_requireThat (holds : Bool) (reason : Bytes) : Fails P (requireThat f holds reason) := by
  cases holds
  · exact .error (hP _)
  · exact .ok ()

theorem fails_validateNames (i : Nat) (names : List Bytes) : Fails P (validateNames i names) := by
  induction names generalizing i with
  | nil => exact .ok ()
  | cons name rest ih =>
    unfold validateNames
    split_ifs
    · exact ih (i + 1)
    · exact .error (hP _)

theorem fails_validate (cfg : BrokerExec.Config) : Fails P (validate cfg) := by
  unfold validate
  repeat refine (fails_requireThat hP _ _).bind fun _ => ?_
  exact fails_validateNames hP 0 _

theorem fails_applyLayers : Fails P (applyLayers table env) := by
  unfold applyLayers
  refine (fails_applyNamed hP).bind fun mode => ?_
  refine (fails_applyString hP _).bind fun accountId => ?_
  refine (fails_applyString hP _).bind fun name => ?_
  refine (fails_applyString hP _).bind fun baseUrl => ?_
  refine (fails_applyInt64 hP _).bind fun timeoutMs => ?_
  refine (fails_applyInt64 hP _).bind fun maxOrderValuePaise => ?_
  refine (fails_applyInt64 hP _).bind fun maxOpenPositions => ?_
  refine (fails_applyPath hP _).bind fun dataDir => ?_
  refine (fails_applyPath hP _).bind fun logDir => ?_
  refine (fails_applyNamed hP).bind fun level => ?_
  exact (fails_applyStringList hP _).bind fun names => .ok _

theorem fails_readTable (path : Bytes) (file : TomlFile) : Fails P (readTable path file) := by
  unfold readTable
  split_ifs
  · exact .ok []
  · cases file with
    | absent => exact .error (hP _)
    | malformed description => exact .error (hP _)
    | parsed table =>
      dsimp only
      rw [scanSecrets_eq]
      cases firstSecret (keysOf [] table) with
      | none => exact .ok table
      | some keyPath => exact .error (hP _)

/-- **Every refusal of a load is a validation error.** -/
theorem load_fails (path : Bytes) (file : TomlFile) : Fails P (load path file env) := by
  unfold load
  refine (fails_readTable hP path file).bind fun table => ?_
  refine (fails_applyLayers hP).bind fun cfg => ?_
  exact (fails_validate hP cfg).bind fun _ => .ok cfg

end

end BrokerExec.Config
