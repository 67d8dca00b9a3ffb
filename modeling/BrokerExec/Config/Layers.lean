import BrokerExec.Config.Load

/-!
# What a loaded configuration is (`config/config.cpp`)

* **`load_without_secrets`** — no key of an accepted file looks like a secret, and otherwise the load
  names the first one that does.
* **`load_env_wins`** — the file counts only where the environment is silent.
* **`load_names`** — a list of valid names, joined by commas in the environment, is the list loaded.
* **`load_valid`** — what the final check leaves.
-/

namespace BrokerExec.Config

open BrokerExec.Domain (explainInvalidStrategyName isValidStrategyName)
open BrokerExec.Errors (Error)
open BrokerExec.Refdata (comma)

/-! ## Secrets -/

theorem readTable_parsed {path : Bytes} (hpath : path ≠ []) (table : Table) :
    readTable path (.parsed table) =
      match firstSecret (keysOf [] table) with
      | some keyPath => .error (secretError keyPath)
      | none => .ok table := by
  unfold readTable
  rw [if_neg hpath]
  dsimp only
  rw [scanSecrets_eq]
  cases firstSecret (keysOf [] table) <;> rfl

/-- **No secret is loaded from a file**: the load fails with the path of the first key, at any depth,
that looks like one, whatever else the file or the environment holds. -/
theorem load_without_secrets {path : Bytes} (hpath : path ≠ []) (table : Table) (env : EnvLookup) :
    (∀ keyPath, firstSecret (keysOf [] table) = some keyPath →
        load path (.parsed table) env = .error (secretError keyPath))
      ∧ ∀ cfg, load path (.parsed table) env = .ok cfg →
        ∀ k ∈ keysOf [] table, isSecretKey k.1 = false := by
  have hread := readTable_parsed hpath table
  constructor
  · intro keyPath hfirst
    rw [hfirst] at hread
    unfold load
    rw [hread]
    rfl
  · intro cfg h
    rw [← firstSecret_eq_none_iff]
    cases hfirst : firstSecret (keysOf [] table) with
    | none => rfl
    | some keyPath =>
      rw [hfirst] at hread
      unfold load at h
      rw [hread] at h
      cases h

theorem load_without_secrets_nested :
    (∀ keyPath, firstSecret (keysOf [] [(ascii "a", .table [(ascii "MPIN", .boolean)])])
          = some keyPath →
        load (ascii "f") (.parsed [(ascii "a", .table [(ascii "MPIN", .boolean)])]) (fun _ => none)
          = .error (secretError keyPath))
      ∧ ∀ cfg, load (ascii "f") (.parsed [(ascii "a", .table [(ascii "MPIN", .boolean)])])
            (fun _ => none) = .ok cfg →
          ∀ k ∈ keysOf [] [(ascii "a", .table [(ascii "MPIN", .boolean)])],
            isSecretKey k.1 = false :=
  load_without_secrets (by decide) _ _

/-! ## The environment over the file -/

inductive Kind where
  | text
  | integer
  | names
  deriving DecidableEq

/-- The fields that a load reads, and what they hold. -/
def knownFields : List (Field × Kind) :=
  [(field "engine" "mode", .text), (field "engine" "account_id", .text),
    (field "broker" "name", .text), (field "broker" "base_url", .text),
    (field "broker" "timeout_ms", .integer), (field "risk" "max_order_value_paise", .integer),
    (field "risk" "max_open_positions", .integer), (field "paths" "data_dir", .text),
    (field "paths" "log_dir", .text), (field "logging" "level", .text),
    (field "strategies" "names", .names)]

def IsString : Node → Prop
  | .string _ => True
  | _ => False

/-- A value of the type that the field holds. -/
def Kind.Holds : Kind → Node → Prop
  | .text, node => IsString node
  | .integer, .integer _ => True
  | .names, .array elements => ∀ e ∈ elements, IsString e
  | _, _ => False

/-- Every known field of the file holds a value of its type. -/
def WellTyped (table : Table) : Prop :=
  ∀ fk ∈ knownFields, ∀ node ∈ nodeAt table fk.1, fk.2.Holds node

/-- The same known fields where the environment is silent. -/
def AgreeOutside (env : EnvLookup) (table table' : Table) : Prop :=
  ∀ fk ∈ knownFields, env fk.1.envKey = none → nodeAt table fk.1 = nodeAt table' fk.1

section EnvWins

variable {α : Type} {table table' : Table} {env : EnvLookup} {f : Field}

/-- What both files could be read as does not count behind the environment. -/
theorem overlay_eq {out : α} {kind : Kind} {read : Node → Result α} {readEnv : Bytes → Result α}
    (hread : ∀ node, kind.Holds node → ∃ a, read node = .ok a)
    (htyped : ∀ node ∈ nodeAt table f, kind.Holds node)
    (htyped' : ∀ node ∈ nodeAt table' f, kind.Holds node)
    (hagree : env f.envKey = none → nodeAt table f = nodeAt table' f) :
    overlay (fileLayer table f out read) (env f.envKey) readEnv
      = overlay (fileLayer table' f out read) (env f.envKey) readEnv := by
  cases henv : env f.envKey with
  | none => rw [fileLayer, hagree henv, fileLayer]
  | some text =>
    have hfile : ∀ t : Table, (∀ node ∈ nodeAt t f, kind.Holds node) →
        overlay (fileLayer t f out read) (some text) readEnv = readEnv text := by
      intro t ht
      unfold fileLayer
      cases hnode : nodeAt t f with
      | none => rfl
      | some node =>
        obtain ⟨a, ha⟩ := hread node (ht node hnode)
        show overlay (read node) _ _ = _
        rw [ha]
        rfl
    rw [hfile table htyped, hfile table' htyped']

theorem textOf_ok (reason : Bytes) (f : Field) {node : Node} (h : Kind.text.Holds node) :
    ∃ a, textOf reason f node = .ok a := by
  cases node with
  | string s => exact ⟨_, rfl⟩
  | _ => exact h.elim

theorem int64Of_ok (f : Field) {node : Node} (h : Kind.integer.Holds node) :
    ∃ a, int64Of f node = .ok a := by
  cases node with
  | integer i => exact ⟨_, rfl⟩
  | _ => exact h.elim

theorem namesOf_ok (f : Field) {node : Node} (h : Kind.names.Holds node) :
    ∃ a, namesOf f node = .ok a := by
  cases node with
  | array elements =>
    unfold Kind.Holds at h
    show ∃ a, elements.mapM (stringOf f) = .ok a
    induction elements with
    | nil => exact ⟨_, rfl⟩
    | cons first rest ih =>
      obtain ⟨hfirst, hrest⟩ := List.forall_mem_cons.mp h
      obtain ⟨names, hnames⟩ := ih hrest
      cases first with
      | string s => exact ⟨s :: names, by rw [List.mapM_cons, hnames]; rfl⟩
      | _ => exact hfirst.elim
  | _ => exact h.elim

theorem applyLayers_eq (htyped : WellTyped table) (htyped' : WellTyped table')
    (hagree : AgreeOutside env table table') : applyLayers table env = applyLayers table' env := by
  have htext : ∀ f reason, (f, Kind.text) ∈ knownFields →
      applyText reason table env f = applyText reason table' env f := fun f reason hf =>
    overlay_eq (fun _ => textOf_ok reason f) (htyped _ hf) (htyped' _ hf) (hagree _ hf)
  have hinteger : ∀ f out, (f, Kind.integer) ∈ knownFields →
      applyInt64 table env f out = applyInt64 table' env f out := fun f _ hf =>
    overlay_eq (fun _ => int64Of_ok f) (htyped _ hf) (htyped' _ hf) (hagree _ hf)
  have hnames : ∀ f out, (f, Kind.names) ∈ knownFields →
      applyStringList table env f out = applyStringList table' env f out := fun f _ hf =>
    overlay_eq (fun _ => namesOf_ok f) (htyped _ hf) (htyped' _ hf) (hagree _ hf)
  unfold applyLayers applyRunProfile applyLogLevel applyNamed applyString applyPath
  rw [htext (field "engine" "mode") _ (by decide), htext (field "engine" "account_id") _ (by decide),
    htext (field "broker" "name") _ (by decide), htext (field "broker" "base_url") _ (by decide),
    hinteger (field "broker" "timeout_ms") _ (by decide),
    hinteger (field "risk" "max_order_value_paise") _ (by decide),
    hinteger (field "risk" "max_open_positions") _ (by decide),
    htext (field "paths" "data_dir") _ (by decide), htext (field "paths" "log_dir") _ (by decide),
    htext (field "logging" "level") _ (by decide),
    hnames (field "strategies" "names") _ (by decide)]

end EnvWins

theorem readTable_clean {path : Bytes} (hpath : path ≠ []) {table : Table}
    (hclean : ∀ k ∈ keysOf [] table, isSecretKey k.1 = false) :
    readTable path (.parsed table) = .ok table := by
  rw [readTable_parsed hpath, firstSecret_eq_none_iff.mpr hclean]

section Loaded

variable {path : Bytes} {file : TomlFile} {env : EnvLookup} {cfg : BrokerExec.Config}

theorem load_ok (h : load path file env = .ok cfg) :
    ∃ table, applyLayers table env = .ok cfg ∧ validate cfg = .ok () := by
  unfold load at h
  obtain ⟨table, -, h⟩ := Steps.bind_eq_ok.mp h
  obtain ⟨cfg', hlayers, h⟩ := Steps.bind_eq_ok.mp h
  obtain ⟨_, hvalid, h⟩ := Steps.bind_eq_ok.mp h
  cases h
  exact ⟨table, hlayers, hvalid⟩

theorem requireThat_ok_iff {f : Field} {holds : Bool} {reason : Bytes} :
    requireThat f holds reason = .ok () ↔ holds = true := by
  cases holds <;> simp [requireThat]

theorem validateNames_ok_iff {i : Nat} {names : List Bytes} :
    validateNames i names = .ok () ↔ ∀ name ∈ names, isValidStrategyName name = true := by
  induction names generalizing i with
  | nil => simp [validateNames]
  | cons name rest ih =>
    unfold validateNames
    split_ifs with hvalid
    · simp [ih, isValidStrategyName, hvalid]
    · simp [isValidStrategyName, hvalid]

/-- What a configuration that was loaded has. -/
structure Valid (cfg : BrokerExec.Config) : Prop where
  accountId : cfg.engine.accountId ≠ []
  brokerName : cfg.broker.name ≠ []
  timeout : 0 < cfg.broker.timeoutMs
  maxOrderValue : 0 ≤ cfg.risk.maxOrderValuePaise
  maxOpenPositions : 0 ≤ cfg.risk.maxOpenPositions
  dataDir : cfg.paths.dataDir ≠ []
  names : ∀ name ∈ cfg.strategies.names, isValidStrategyName name = true

theorem load_valid (h : load path file env = .ok cfg) : Valid cfg := by
  obtain ⟨_, -, hvalid⟩ := load_ok h
  unfold validate at hvalid
  obtain ⟨_, haccount, hvalid⟩ := Steps.bind_eq_ok.mp hvalid
  obtain ⟨_, hname, hvalid⟩ := Steps.bind_eq_ok.mp hvalid
  obtain ⟨_, htimeout, hvalid⟩ := Steps.bind_eq_ok.mp hvalid
  obtain ⟨_, hvalue, hvalid⟩ := Steps.bind_eq_ok.mp hvalid
  obtain ⟨_, hpositions, hvalid⟩ := Steps.bind_eq_ok.mp hvalid
  obtain ⟨_, hdir, hnames⟩ := Steps.bind_eq_ok.mp hvalid
  rw [requireThat_ok_iff, decide_eq_true_eq] at haccount hname htimeout hvalue hpositions hdir
  exact ⟨haccount, hname, htimeout, hvalue, hpositions, hdir, validateNames_ok_iff.mp hnames⟩

end Loaded

/-! ## A list in one variable -/

theorem trimBlanks_of_clean {text : Bytes} (h : ∀ c ∈ text, isBlankByte c = false) :
    trimBlanks text = text := by
  have hdrop : ∀ t : Bytes, (∀ c ∈ t, isBlankByte c = false) → t.dropWhile isBlankByte = t := by
    intro t ht
    cases t with
    | nil => rfl
    | cons c t => rw [List.dropWhile_cons_of_neg (by simp [ht c (by simp)])]
  rw [trimBlanks, hdrop text h, hdrop _ fun c hc => h c (List.mem_reverse.mp hc),
    List.reverse_reverse]

/-- Of names without commas and blanks, none of them empty. -/
theorem envList_intercalate {names : List Bytes} (hne : ∀ name ∈ names, name ≠ [])
    (hcomma : ∀ name ∈ names, comma ∉ name)
    (hblank : ∀ name ∈ names, ∀ c ∈ name, isBlankByte c = false) :
    envList ([comma].intercalate names) = names := by
  unfold envList
  cases names with
  | nil => decide
  | cons first rest =>
    have hmap : (first :: rest).map trimBlanks = first :: rest :=
      (List.map_congr_left fun name hname => trimBlanks_of_clean (hblank name hname)).trans
        (List.map_id _)
    rw [List.splitOn_intercalate comma hcomma (List.cons_ne_nil first rest), hmap, if_neg]
    intro hempty
    exact hne first (by simp) (List.cons.inj hempty).1

/-- **A list of valid names comes back from the environment as it was joined.** -/
theorem load_names {path : Bytes} {file : TomlFile} {env : EnvLookup} {cfg : BrokerExec.Config}
    {names : List Bytes} (hvalid : ∀ name ∈ names, isValidStrategyName name = true)
    (henv : env (field "strategies" "names").envKey = some ([comma].intercalate names))
    (h : load path file env = .ok cfg) : cfg.strategies.names = names := by
  have hchars : ∀ name ∈ names, ∀ c ∈ name, Domain.isTokenChar c = true := fun name hname =>
    (Domain.validName_of_isValidStrategyName (hvalid name hname)).charset
  have hnames : envList ([comma].intercalate names) = names := by
    apply envList_intercalate
    · intro name hname hempty
      obtain ⟨c, hc, -⟩ := (Domain.validName_of_isValidStrategyName (hvalid name hname)).alnum
      rw [hempty] at hc
      cases hc
    · intro name hname hc
      exact absurd (hchars name hname _ hc) (by decide)
    · intro name hname c hc
      have htoken := hchars name hname c hc
      by_contra hblank
      simp only [isBlankByte, Bool.not_eq_false, Bool.or_eq_true, beq_iff_eq] at hblank
      rcases hblank with rfl | rfl <;> exact absurd htoken (by decide)
  obtain ⟨table, hlayers, -⟩ := load_ok h
  unfold applyLayers at hlayers
  iterate 10 obtain ⟨_, -, hlayers⟩ := Steps.bind_eq_ok.mp hlayers
  obtain ⟨loaded, hloaded, hlayers⟩ := Steps.bind_eq_ok.mp hlayers
  unfold applyStringList overlay at hloaded
  obtain ⟨_, -, hloaded⟩ := Steps.bind_eq_ok.mp hloaded
  rw [henv] at hloaded
  cases hlayers
  cases hloaded
  exact hnames

/-- An environment that alone is enough. -/
def envOf (names : Bytes) : EnvLookup := fun key =>
  [(ascii "BROKER_EXEC_ENGINE_ACCOUNT_ID", ascii "ab1"), (ascii "BROKER_EXEC_BROKER_NAME",
    ascii "kite"), (ascii "BROKER_EXEC_PATHS_DATA_DIR", ascii "/srv"),
    (ascii "BROKER_EXEC_STRATEGIES_NAMES", names)].lookup key

theorem load_names_two :
    ∃ cfg, load [] .absent (envOf (ascii "momentum,mean-rev")) = .ok cfg
      ∧ cfg.strategies.names = [ascii "momentum", ascii "mean-rev"] :=
  have hload : load [] .absent (envOf (ascii "momentum,mean-rev"))
      = .ok ⟨⟨.dryRun, ascii "ab1"⟩, ⟨ascii "kite", [], 5000⟩, ⟨0, 0⟩, ⟨ascii "/srv", []⟩, ⟨.info⟩,
        ⟨[ascii "momentum", ascii "mean-rev"]⟩⟩ := by decide +kernel
  ⟨_, hload, load_names (by decide +kernel) (by decide +kernel) hload⟩

end BrokerExec.Config
