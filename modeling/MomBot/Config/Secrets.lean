import Mathlib.Data.List.DropRight
import MomBot.Memo
import MomBot.Python.Int
import MomBot.Python.Raise

/-!
# `config.py`: secrets

`loadSecret` asks the one source that was selected when the process started, and keeps what it has
found for the life of the process.  Key Vault and the file system belong to the world; of a path
only its components matter, and `resolve(strict=True)` is what the file system makes of it.
-/

namespace MomBot.Config

open Python (Dict bind_eq_ok_iff isIntSpace)

/-! ## Settings -/

/-- The deployments, `MOM_BOT_ENV`. -/
inductive Env where
  | dev
  | prod
  deriving DecidableEq, Repr

/-- An environment as it stands in a qualified name. -/
def Env.text : Env → String
  | dev => "dev"
  | prod => "prod"

/-- Where secrets are read from, `MOM_BOT_SECRET_SOURCE`. -/
inductive SecretSource where
  | azure
  | environment
  | files
  deriving DecidableEq, Repr

/-- A source as it stands in a key of the cache. -/
def SecretSource.text : SecretSource → String
  | azure => "azure"
  | environment => "environment"
  | files => "files"

/-- The module's state that is read once. -/
structure Settings where
  env : Env
  keyVaultName : String
  source : SecretSource

/-! ## The world -/

/-- A resolved path, by its parts. -/
abbrev Path := List String

/-- What the file system raises. -/
inductive FileError where
  | osError
  | unicodeError
  | other
  deriving DecidableEq, Repr

/-- What the file source asks of the file system. -/
structure FileSystem where
  resolveDirectory : String → Except FileError Path
  resolveEntry : Path → String → Except FileError Path
  /-- The bytes of a file as UTF-8, before line ends are translated. -/
  decode : Path → Except FileError (List Char)

/-- What Key Vault raises; `unauthenticated` is a client that cannot be built. -/
inductive VaultError where
  | resourceNotFound
  | unauthenticated
  | other
  deriving DecidableEq, Repr

/-- Everything that a load looks at outside the module. -/
structure World where
  environ : String → Option String
  files : FileSystem
  /-- The value of a secret's bundle may be missing. -/
  vault : String → Except VaultError (Option String)

/-! ## Errors -/

/-- `ConfigError`. -/
structure ConfigError where
  secretName : Option String
  message : String
  deriving DecidableEq, Repr

/-- `ConfigError`, or what passes through. -/
inductive LoadError where
  | config (error : ConfigError)
  | file (error : FileError)
  | vault (error : VaultError)
  deriving DecidableEq, Repr

/-- `repr` of a text without quotes, backslashes and characters that cannot be printed. -/
def quoted (text : String) : String := "'" ++ text ++ "'"

/-- A `ConfigError` that has no cause. -/
def LoadError.ofMessage (message : String) : LoadError := .config ⟨none, message⟩

/-- `ConfigError(secret_name)`. -/
def LoadError.ofSecretName (keyVaultName secretName : String) : LoadError :=
  .config ⟨some secretName, "Required secret " ++ quoted secretName ++ " not found in Key Vault " ++
    quoted keyVaultName ++ ". " ++ "Ensure the secret exists and the identity has " ++
    "Key Vault Secrets User."⟩

/-- The name does not match the pattern of portable names. -/
def invalidName : LoadError := .ofMessage "Invalid portable secret name"

/-- `MOM_BOT_SECRET_DIR` is unset or empty. -/
def directoryRequired : LoadError := .ofMessage "MOM_BOT_SECRET_DIR is required for file secrets"

/-- The entry resolves to a path outside the directory. -/
def outsideDirectory : LoadError := .ofMessage "Secret file must remain inside its directory"

/-- The variable is unset, or the file could not be read. -/
def unavailable (qualifiedName : String) : LoadError :=
  .ofMessage ("Required portable secret " ++ quoted qualifiedName ++ " unavailable")

/-- The value is blank. -/
def missingOrEmpty (qualifiedName : String) : LoadError :=
  .ofMessage ("Required portable secret " ++ quoted qualifiedName ++ " missing or empty")

/-! ## Texts -/

/-- `[a-z0-9]`. -/
def isNameChar (c : Char) : Bool :=
  ('a' ≤ c && c ≤ 'z') || ('0' ≤ c && c ≤ '9')

/-- `[a-z0-9]+(?:-[a-z0-9]+)*`. -/
def matchesName : List Char → Bool
  | [] => false
  | [c] => isNameChar c
  | c :: '-' :: rest => isNameChar c && matchesName rest
  | c :: next :: rest => isNameChar c && matchesName (next :: rest)

/-- `upper()` and `replace("-", "_")` on a character of a name. -/
def variableChar (c : Char) : Char := if c = '-' then '_' else c.toUpper

/-- The environment variable of a portable secret. -/
def variableOf (name : String) : String :=
  "MOM_BOT_SECRET_" ++ String.ofList (name.toList.map variableChar)

/-- White space of `str.strip`. -/
def isSpace (c : Char) : Bool := isIntSpace c || (0x1c ≤ c.toNat && c.toNat ≤ 0x1f)

/-- Nothing is left of the value after `strip()`. -/
def isBlank (value : String) : Bool := value.toList.all isSpace

/-- The line ends of a text file are read as `\n`. -/
def universalNewlines : List Char → List Char
  | [] => []
  | '\r' :: '\n' :: rest => '\n' :: universalNewlines rest
  | '\r' :: rest => '\n' :: universalNewlines rest
  | c :: rest => c :: universalNewlines rest

/-- `rstrip("\r\n")`. -/
def stripLineEnds (text : List Char) : String :=
  String.ofList (text.rdropWhile fun c => c = '\r' ∨ c = '\n')

/-! ## Sources -/

variable (s : Settings)

/-- The name under which a source is asked. -/
def Settings.qualifiedName (name : String) : String := s.env.text ++ "-" ++ name

/-- The key of the cache: one for each source and qualified name. -/
def Settings.cacheKey (name : String) : String := s.source.text ++ ":" ++ s.qualifiedName name

/-- The `except` of the file source. -/
def orUnavailable {α : Type} (qualifiedName : String) : Except FileError α → Except LoadError α
  | .ok value => .ok value
  | .error .osError | .error .unicodeError => .error (unavailable qualifiedName)
  | .error .other => .error (.file .other)

/-- The file source of `load_secret`. -/
def readSecretFile (w : World) (qualifiedName : String) : Except LoadError String :=
  match w.environ "MOM_BOT_SECRET_DIR" with
  | none | some "" => .error directoryRequired
  | some directory => do
      let base ← orUnavailable qualifiedName (w.files.resolveDirectory directory)
      let secretFile ← orUnavailable qualifiedName (w.files.resolveEntry base qualifiedName)
      if ¬ base <+: secretFile then throw outsideDirectory
      let text ← orUnavailable qualifiedName (w.files.decode secretFile)
      return stripLineEnds (universalNewlines text)

/-- A portable source, for a name that is in order. -/
def readPortable (w : World) (name : String) : Except LoadError String :=
  match s.source with
  | .environment => .ok ((w.environ (variableOf name)).getD "")
  | _ => readSecretFile w (s.qualifiedName name)

/-- `load_secret` behind its cache. -/
def fetchSecret (name : String) (w : World) : Except LoadError (Option String) :=
  if s.source ≠ .azure then
    if ¬ matchesName name.toList then .error invalidName
    else do
      let value ← readPortable s w name
      if isBlank value then throw (missingOrEmpty (s.qualifiedName name))
      return some value
  else
    match w.vault (s.qualifiedName name) with
    | .error .resourceNotFound =>
        .error (.ofSecretName s.keyVaultName (s.qualifiedName name))
    | .error error => .error (.vault error)
    | .ok value => .ok value

/-- `load_secret`. -/
def loadSecret (cache : Dict String (Option String)) (w : World) (name : String) :
    Except LoadError (Option String) × Dict String (Option String) :=
  match cache.get? (s.cacheKey name) with
  | some value => (.ok value, cache)
  | none =>
      match fetchSecret s name w with
      | .ok value => (.ok value, cache.set (s.cacheKey name) value)
      | .error error => (.error error, cache)

/-! ## Names -/

section Names

variable {s : Settings} {name other : String} {c : Char} {cs : List Char}

theorem qualifiedName_injective : Function.Injective s.qualifiedName := by
  intro name other h
  exact String.append_right_inj _ |>.mp h

theorem cacheKey_injective : Function.Injective s.cacheKey := by
  intro name other h
  exact qualifiedName_injective (String.append_right_inj _ |>.mp h)

/-- The characters of names. -/
def nameAlphabet : List Char := "-0123456789abcdefghijklmnopqrstuvwxyz".toList

theorem nameChar_table : ∀ n < 128, isNameChar (Char.ofNat n) = true →
    Char.ofNat n ∈ nameAlphabet := by
  decide +kernel

theorem mem_nameAlphabet (h : isNameChar c = true) : c ∈ nameAlphabet := by
  have hascii : c.toNat < 128 := by
    simp only [isNameChar, Bool.or_eq_true, Bool.and_eq_true, decide_eq_true_eq] at h
    rcases h with ⟨-, hle⟩ | ⟨-, hle⟩
    · exact lt_of_le_of_lt (UInt32.le_iff_toNat_le.mp hle) (by decide)
    · exact lt_of_le_of_lt (UInt32.le_iff_toNat_le.mp hle) (by decide)
  have htable := nameChar_table c.toNat hascii
  rw [Char.ofNat_toNat] at htable
  exact htable h

theorem mem_nameAlphabet_of_matchesName (h : matchesName cs = true) :
    ∀ c ∈ cs, c ∈ nameAlphabet := by
  fun_induction matchesName cs with
  | case1 => cases h
  | case2 c =>
      rw [List.forall_mem_singleton]
      exact mem_nameAlphabet h
  | case3 c rest ih =>
      obtain ⟨hc, hrest⟩ := Bool.and_eq_true_iff.mp h
      rw [List.forall_mem_cons, List.forall_mem_cons]
      exact ⟨mem_nameAlphabet hc, by decide, ih hrest⟩
  | case4 c next rest _ ih =>
      obtain ⟨hc, hrest⟩ := Bool.and_eq_true_iff.mp h
      rw [List.forall_mem_cons]
      exact ⟨mem_nameAlphabet hc, ih hrest⟩

/-- The character of a name, back from that of its variable. -/
def nameChar (c : Char) : Char := if c = '_' then '-' else c.toLower

theorem nameChar_variableChar_all :
    nameAlphabet.all (fun c => nameChar (variableChar c) = c) = true := by
  decide +kernel

theorem nameChar_variableChar {c : Char} (hc : c ∈ nameAlphabet) : nameChar (variableChar c) = c :=
  of_decide_eq_true (List.all_eq_true.mp nameChar_variableChar_all c hc)

theorem variableChar_injOn {c c' : Char} (hc : c ∈ nameAlphabet) (hc' : c' ∈ nameAlphabet)
    (heq : variableChar c = variableChar c') : c = c' :=
  calc
    c = nameChar (variableChar c) := (nameChar_variableChar hc).symm
    _ = nameChar (variableChar c') := congrArg nameChar heq
    _ = c' := nameChar_variableChar hc'

theorem map_variableChar_inj {cs' : List Char} (hcs : ∀ c ∈ cs, c ∈ nameAlphabet)
    (hcs' : ∀ c ∈ cs', c ∈ nameAlphabet)
    (heq : cs.map variableChar = cs'.map variableChar) : cs = cs' := by
  induction cs generalizing cs' with
  | nil => exact (List.map_eq_nil_iff.mp heq.symm).symm
  | cons c rest ih =>
      cases cs' with
      | nil => cases heq
      | cons c' rest' =>
          rw [List.forall_mem_cons] at hcs hcs'
          obtain ⟨hc, hrest⟩ := List.cons.inj heq
          rw [variableChar_injOn hcs.1 hcs'.1 hc, ih hcs.2 hcs'.2 hrest]

/-- Different names are looked up in different variables. -/
theorem variableOf_injective (h : matchesName name.toList = true)
    (hother : matchesName other.toList = true) (heq : variableOf name = variableOf other) :
    name = other := by
  have hchars : name.toList.map variableChar = other.toList.map variableChar :=
    String.ofList_injective (String.append_right_inj _ |>.mp heq)
  refine String.toList_injective (map_variableChar_inj ?_ ?_ hchars)
  · exact mem_nameAlphabet_of_matchesName h
  · exact mem_nameAlphabet_of_matchesName hother

end Names

/-! ## What is held -/

section Held

variable {s : Settings} {w w' : World} {name : String} {value : Option String}

/-- The selected source holds `value` for the secret, and it is in order. -/
inductive Held (s : Settings) (w : World) (name : String) : Option String → Prop
  | environment {value : String} : s.source = .environment → matchesName name.toList = true →
      w.environ (variableOf name) = some value → isBlank value = false →
      Held s w name (some value)
  | files {directory : String} {base secretFile : Path} {text : List Char} :
      s.source = .files → matchesName name.toList = true →
      w.environ "MOM_BOT_SECRET_DIR" = some directory → directory ≠ "" →
      w.files.resolveDirectory directory = .ok base →
      w.files.resolveEntry base (s.qualifiedName name) = .ok secretFile → base <+: secretFile →
      w.files.decode secretFile = .ok text →
      isBlank (stripLineEnds (universalNewlines text)) = false →
      Held s w name (some (stripLineEnds (universalNewlines text)))
  | azure {value : Option String} : s.source = .azure →
      w.vault (s.qualifiedName name) = .ok value → Held s w name value

theorem orUnavailable_eq_ok {α : Type} {qualifiedName : String} {result : Except FileError α}
    {a : α} : orUnavailable qualifiedName result = .ok a ↔ result = .ok a := by
  rcases result with (_ | _ | _) | b <;> simp [orUnavailable]

/-- The file that is read lies in the directory. -/
theorem readSecretFile_eq_ok {qualifiedName value : String} :
    readSecretFile w qualifiedName = .ok value ↔
      ∃ directory base secretFile text, w.environ "MOM_BOT_SECRET_DIR" = some directory ∧
        directory ≠ "" ∧ w.files.resolveDirectory directory = .ok base ∧
        w.files.resolveEntry base qualifiedName = .ok secretFile ∧ base <+: secretFile ∧
        w.files.decode secretFile = .ok text ∧ stripLineEnds (universalNewlines text) = value := by
  unfold readSecretFile
  split
  next hnone => simp [hnone, directoryRequired, LoadError.ofMessage]
  next hempty => simp [hempty, directoryRequired, LoadError.ofMessage]
  next directory hnonempty hdirectory =>
    simp only [bind_eq_ok_iff, orUnavailable_eq_ok, hdirectory, Option.some.injEq]
    constructor
    · intro h
      obtain ⟨base, hbase, secretFile, hfile, h⟩ := h
      split at h
      case isTrue => cases h
      next hinside =>
        obtain ⟨text, htext, hvalue⟩ := bind_eq_ok_iff.mp h
        rw [orUnavailable_eq_ok] at htext
        exact ⟨directory, base, secretFile, text, rfl, hnonempty, hbase, hfile,
          not_not.mp hinside, htext, Except.ok.inj hvalue⟩
    · intro h
      obtain ⟨_, base, secretFile, text, rfl, -, hbase, hfile, hinside, htext, hvalue⟩ := h
      refine ⟨base, hbase, secretFile, hfile, ?_⟩
      rw [if_neg (not_not.mpr hinside)]
      exact bind_eq_ok_iff.mpr ⟨text, orUnavailable_eq_ok.mpr htext, congrArg _ hvalue⟩

/-- What a portable source answers is in order. -/
theorem fetchSecret_eq_ok_of_portable (hsource : s.source ≠ .azure) :
    fetchSecret s name w = .ok value ↔ matchesName name.toList = true ∧
      ∃ text, readPortable s w name = .ok text ∧ isBlank text = false ∧ value = some text := by
  unfold fetchSecret
  rw [if_pos hsource]
  split
  next hinvalid =>
    exact iff_of_false (by simp [invalidName, LoadError.ofMessage]) fun h => hinvalid h.1
  next hvalid =>
    rw [bind_eq_ok_iff, and_iff_right (not_not.mp hvalid)]
    refine exists_congr fun text => and_congr_right fun _ => ?_
    split
    next hblank =>
      refine iff_of_false (fun h => by cases h) fun h => ?_
      exact absurd (hblank.symm.trans h.1) (by decide)
    next hblank =>
      rw [and_iff_right (Bool.not_eq_true _ ▸ hblank)]
      exact ⟨fun h => (Except.ok.inj h).symm, fun h => congrArg _ h.symm⟩

theorem fetchSecret_eq_ok_iff : fetchSecret s name w = .ok value ↔ Held s w name value := by
  cases hsource : s.source with
  | environment =>
      rw [fetchSecret_eq_ok_of_portable (by simp [hsource])]
      simp only [readPortable, hsource]
      constructor
      · intro h
        obtain ⟨hname, text, htext, hblank, rfl⟩ := h
        obtain rfl := Except.ok.inj htext
        cases hvariable : w.environ (variableOf name) with
        | none =>
            rw [hvariable] at hblank
            exact absurd hblank (by decide)
        | some text =>
            rw [hvariable] at hblank
            exact .environment hsource hname hvariable hblank
      · intro h
        cases h with
        | environment _ hname hvariable hblank =>
            exact ⟨hname, _, by rw [hvariable]; rfl, hblank, rfl⟩
        | files hother => cases hsource.symm.trans hother
        | azure hother => cases hsource.symm.trans hother
  | files =>
      rw [fetchSecret_eq_ok_of_portable (by simp [hsource])]
      simp only [readPortable, hsource]
      constructor
      · intro h
        obtain ⟨hname, text, hread, hblank, rfl⟩ := h
        obtain ⟨directory, base, file, contents, hdirectory, hnonempty, hbase, hfile, hinside,
          hcontents, rfl⟩ := readSecretFile_eq_ok.mp hread
        exact .files hsource hname hdirectory hnonempty hbase hfile hinside hcontents hblank
      · intro h
        cases h with
        | files _ hname hdirectory hnonempty hbase hfile hinside htext hblank =>
            refine ⟨hname, _, readSecretFile_eq_ok.mpr ?_, hblank, rfl⟩
            exact ⟨_, _, _, _, hdirectory, hnonempty, hbase, hfile, hinside, htext, rfl⟩
        | environment hother => cases hsource.symm.trans hother
        | azure hother => cases hsource.symm.trans hother
  | azure =>
      unfold fetchSecret
      rw [if_neg (not_not.mpr hsource)]
      constructor
      · intro h
        split at h
        next => cases h
        next => cases h
        next found hfound =>
          obtain rfl := Except.ok.inj h
          exact .azure hsource hfound
      · intro h
        cases h with
        | azure _ hvault => rw [hvault]
        | environment hother => cases hsource.symm.trans hother
        | files hother => cases hsource.symm.trans hother

end Held

/-! ## Runs -/

/-- A call of `load_secret`, and the world as it is then. -/
abbrev Call := Memo.Question String World

/-- `_cache` after some calls. -/
def cacheAfter (s : Settings) (calls : List Call) : Dict String (Option String) :=
  calls.foldl (fun cache call => (loadSecret s cache call.world call.name).2) Dict.empty

section Runs

variable {s : Settings} {calls : List Call} {call : Call} {value : Option String}

/-- The cache is a memory of what was found. -/
theorem loadSecret_eq_answer (s : Settings) (cache : Dict String (Option String)) (call : Call) :
    loadSecret s cache call.world call.name =
      Memo.answer s.cacheKey (fetchSecret s) cache call := by
  unfold loadSecret Memo.answer
  cases cache.get? (s.cacheKey call.name) with
  | some value => rfl
  | none => cases fetchSecret s call.name call.world <;> rfl

theorem cacheAfter_eq_memory (s : Settings) (calls : List Call) :
    cacheAfter s calls = Memo.memory s.cacheKey (fetchSecret s) calls := by
  simp only [cacheAfter, Memo.memory, loadSecret_eq_answer]

/-- Whatever was asked before, and however the world has changed in between: a call returns what the
selected source held, in order, at the first call for the name at which it held anything at all; it
raises exactly if there was no such call, itself included. -/
theorem loadSecret_eq_ok_iff (s : Settings) (calls : List Call) (call : Call)
    (value : Option String) :
    (loadSecret s (cacheAfter s calls) call.world call.name).1 = .ok value ↔
      ∃ before first after, calls ++ [call] = before ++ first :: after ∧ first.name = call.name ∧
        Held s first.world call.name value ∧
        ∀ earlier ∈ before, earlier.name = call.name →
          ∀ v, ¬ Held s earlier.world call.name v := by
  rw [loadSecret_eq_answer, cacheAfter_eq_memory, Memo.answer_memory_eq_ok_iff cacheKey_injective,
    Memo.firstFound_eq_some_iff]
  simp only [fetchSecret_eq_ok_iff, ne_eq]

/-! ### Other secrets -/

/-- The worlds differ at most in the variables of other secrets, in files and in Key Vault. -/
def OthersOnly (name : String) (w w' : World) : Prop :=
  ∀ key, (∀ other, matchesName other.toList = true → other ≠ name → key ≠ variableOf other) →
    w.environ key = w'.environ key

theorem fetchSecret_congr {name : String} {w w' : World} (hsource : s.source = .environment)
    (h : OthersOnly name w w') : fetchSecret s name w = fetchSecret s name w' := by
  unfold fetchSecret
  split
  case isFalse hazure => exact absurd hsource (by simp [not_not.mp hazure])
  split
  next => rfl
  next hvalid =>
    have hname := not_not.mp hvalid
    have hvariable : w.environ (variableOf name) = w'.environ (variableOf name) := by
      refine h _ fun other hother hne heq => hne ?_
      exact variableOf_injective hother hname heq.symm
    simp only [readPortable, hsource, hvariable]

/-- With the variables as the source, neither another secret nor the files nor Key Vault have any
influence on what a secret is loaded as, over the whole life of the process. -/
theorem loadSecret_unaffected {name : String} {w w' : World} {calls' : List Call}
    (hsource : s.source = .environment)
    (hcalls : List.Forall₂ (fun call call' => call.name = call'.name ∧
      OthersOnly name call.world call'.world) calls calls')
    (hworld : OthersOnly name w w') :
    (loadSecret s (cacheAfter s calls) w name).1 =
      (loadSecret s (cacheAfter s calls') w' name).1 := by
  rw [loadSecret_eq_answer s _ ⟨name, w⟩, loadSecret_eq_answer s _ ⟨name, w'⟩,
    cacheAfter_eq_memory, cacheAfter_eq_memory]
  refine Memo.answer_memory_congr cacheKey_injective (fetchSecret_congr hsource hworld) ?_
  exact hcalls.imp fun _ _ h => ⟨h.1, fetchSecret_congr hsource h.2⟩

end Runs

/-- Variables of two secrets, nothing else. -/
def twoSecrets (token : String) : World where
  environ key :=
    if key = "MOM_BOT_SECRET_GUILD_ID" then some "7"
    else if key = "MOM_BOT_SECRET_DISCORD_TOKEN" then some token
    else none
  files := ⟨fun _ => .error .osError, fun _ _ => .error .osError, fun _ => .error .osError⟩
  vault _ := .error .resourceNotFound

/-- Production settings that read the environment. -/
def portable : Settings := ⟨.prod, "kv-mombot-eastus2", .environment⟩

theorem othersOnly_twoSecrets (token token' : String) :
    OthersOnly "guild-id" (twoSecrets token) (twoSecrets token') := by
  intro key hkey
  have hother : key ≠ "MOM_BOT_SECRET_DISCORD_TOKEN" := by
    have h := hkey "discord-token" (by decide +kernel) (by decide)
    rwa [show variableOf "discord-token" = "MOM_BOT_SECRET_DISCORD_TOKEN" by decide +kernel] at h
  simp [twoSecrets, hother]

theorem loadSecret_unaffected_token :
    (loadSecret portable (cacheAfter portable [⟨"discord-token", twoSecrets "a"⟩])
        (twoSecrets "b") "guild-id").1 =
      (loadSecret portable (cacheAfter portable [⟨"discord-token", twoSecrets ""⟩])
        (twoSecrets "c") "guild-id").1 :=
  loadSecret_unaffected rfl (.cons ⟨rfl, othersOnly_twoSecrets _ _⟩ .nil)
    (othersOnly_twoSecrets _ _)

example : (loadSecret portable (cacheAfter portable [⟨"guild-id", twoSecrets "a"⟩])
    { twoSecrets "b" with environ := fun _ => none } "guild-id").1.toOption = some (some "7") := by
  decide +kernel

end MomBot.Config
