import MomBot.Sidecar.Endpoint

/-!
# `sidecar/auth.py`: the bearer token

Every endpoint of the sidecar depends on `requireBearer`, which is to let a request pass, answer
403 or answer 401, and nothing else (`Decides`).  A header is decoded as Latin-1, and the
comparison of the token takes ASCII only: `secrets.compare_digest` raises `TypeError` for
anything else.  Nothing catches it, so a header with the right scheme and a token outside ASCII
is no 401 but a 500; `requireBearer_decides_iff` says that there is no other exception.
-/

namespace MomBot.Sidecar

open Cooperative Roles Python

/-! ## Strings -/

/-- The character is ASCII. -/
def isAscii (c : Char) : Bool := c.toNat < 128

/-- The value of a header, decoded. -/
structure HeaderText where
  chars : List Char
  latin1 : ∀ c ∈ chars, c.toNat < 256

/-- The value of `BOT_API_KEY`. -/
structure ApiKey where
  chars : List Char
  nonempty : chars ≠ []
  ascii : ∀ c ∈ chars, isAscii c = true

/-- `s.partition(sep)`, less the separator itself. -/
def partition (sep : Char) : List Char → List Char × List Char
  | [] => ([], [])
  | c :: rest =>
      if c = sep then ([], rest)
      else
        let (head, tail) := partition sep rest
        (c :: head, tail)

/-- `str.lower` on a character of Latin-1: the multiplication sign has no lower case. -/
def lower (c : Char) : Char :=
  if (0x41 ≤ c.toNat ∧ c.toNat ≤ 0x5A) ∨ (0xC0 ≤ c.toNat ∧ c.toNat ≤ 0xDE ∧ c.toNat ≠ 0xD7) then
    Char.ofNat (c.toNat + 32)
  else c

/-! ## The dependency -/

/-- `HTTPException`. -/
structure HttpException where
  statusCode : ℕ
  detail : String
  headers : List (String × String)
  deriving DecidableEq, Repr

/-- What leaves the dependency. -/
inductive AuthError where
  | http (exc : HttpException)
  | typeError
  deriving DecidableEq, Repr

/-- `secrets.compare_digest` on two strings. -/
def compareDigest (a b : List Char) : Except AuthError Bool :=
  if a.all isAscii && b.all isAscii then .ok (a = b) else .error .typeError

/-- No credentials were sent. -/
def notAuthenticated : HttpException := ⟨403, "Not authenticated", []⟩

/-- The credentials are wrong. -/
def invalidApiKey : HttpException := ⟨401, "Invalid API key", [("WWW-Authenticate", "Bearer")]⟩

/-- `_require_bearer`, as `make_bearer_dependency` returns it for a key. -/
def requireBearer (apiKey : ApiKey) : Option HeaderText → Except AuthError Unit
  | none => .error (.http notAuthenticated)
  | some authorization => do
      let parts := partition ' ' authorization.chars
      if parts.1.map lower ≠ "bearer".toList then throw (.http invalidApiKey)
      else if ← compareDigest parts.2 apiKey.chars then return ()
      else throw (.http invalidApiKey)

/-! ## What it is for -/

/-- The scheme, in whichever case. -/
def IsBearer (scheme : List Char) : Prop :=
  List.Forall₂ (fun c letter => c = letter ∨ c = letter.toUpper) scheme "bearer".toList

/-- The header is the scheme, a space and the token. -/
def Carries (authorization : HeaderText) (token : List Char) : Prop :=
  ∃ scheme, authorization.chars = scheme ++ ' ' :: token ∧ IsBearer scheme

/-- Absent headers are answered by 403, those with the key pass, and the others are answered by
401 with `WWW-Authenticate`.  Nothing else is raised. -/
structure Decides (apiKey : ApiKey) (authorization : Option HeaderText)
    (answer : Except AuthError Unit) : Prop where
  absent : authorization = none → answer = .error (.http notAuthenticated)
  accepted : answer = .ok () ↔ ∃ value ∈ authorization, Carries value apiKey.chars
  rejected : ∀ value ∈ authorization, ¬ Carries value apiKey.chars →
    answer = .error (.http invalidApiKey)
  escapes : ∀ exc, answer = .error exc → ∃ http, exc = .http http

/-! ## The pieces of a header -/

section Strings

variable {sep c letter : Char} {s head tail scheme token : List Char}

theorem partition_of_mem (h : sep ∈ s) : ∃ head tail, partition sep s = (head, tail) ∧
    s = head ++ sep :: tail ∧ sep ∉ head := by
  induction s with
  | nil => exact absurd h List.not_mem_nil
  | cons c rest ih =>
      by_cases hc : c = sep
      · subst hc
        exact ⟨[], rest, by simp [partition], rfl, List.not_mem_nil⟩
      · have hrest : sep ∈ rest := by simpa [Ne.symm hc] using h
        obtain ⟨head, tail, hpartition, rfl, hhead⟩ := ih hrest
        refine ⟨c :: head, tail, by simp [partition, hc, hpartition], rfl, ?_⟩
        simpa [Ne.symm hc] using hhead

theorem partition_of_notMem (h : sep ∉ s) : partition sep s = (s, []) := by
  induction s with
  | nil => rfl
  | cons c rest ih =>
      obtain ⟨hc, hrest⟩ := List.ne_and_not_mem_of_not_mem_cons h
      simp [partition, Ne.symm hc, ih hrest]

/-- A separator that the head is without is where the text is cut. -/
theorem partition_append (h : sep ∉ head) : partition sep (head ++ sep :: tail) = (head, tail) := by
  induction head with
  | nil => simp [partition]
  | cons c rest ih =>
      obtain ⟨hc, hrest⟩ := List.ne_and_not_mem_of_not_mem_cons h
      simp [partition, Ne.symm hc, ih hrest]

theorem lower_table : ∀ n < 256, "bearer".toList.all (fun letter =>
    lower (Char.ofNat n) = letter ↔ Char.ofNat n = letter ∨ Char.ofNat n = letter.toUpper) := by
  decide +kernel

/-- Among the characters of Latin-1, only the two cases of an ASCII letter are lowered to it. -/
theorem lower_eq_iff (hc : c.toNat < 256) (hletter : letter ∈ "bearer".toList) :
    lower c = letter ↔ c = letter ∨ c = letter.toUpper := by
  have h := of_decide_eq_true (List.all_eq_true.mp (lower_table c.toNat hc) letter hletter)
  rwa [Char.ofNat_toNat] at h

theorem map_lower_eq_iff {word : List Char} (hs : ∀ c ∈ s, c.toNat < 256)
    (hword : ∀ letter ∈ word, letter ∈ "bearer".toList) :
    s.map lower = word ↔ List.Forall₂ (fun c letter => c = letter ∨ c = letter.toUpper) s word := by
  induction s generalizing word with
  | nil => cases word <;> simp
  | cons c rest ih =>
      cases word with
      | nil => simp
      | cons letter word =>
          rw [List.forall_mem_cons] at hs hword
          rw [List.map_cons, List.cons.injEq, List.forall₂_cons, lower_eq_iff hs.1 hword.1,
            ih hs.2 hword.2]

theorem isBearer_iff (h : ∀ c ∈ scheme, c.toNat < 256) :
    IsBearer scheme ↔ scheme.map lower = "bearer".toList :=
  (map_lower_eq_iff h fun _ hletter => hletter).symm

/-- The scheme has no space in it. -/
theorem space_notMem (h : scheme.map lower = "bearer".toList) : ' ' ∉ scheme := by
  intro hspace
  have hmem : lower ' ' ∈ scheme.map lower := List.mem_map_of_mem hspace
  rw [h] at hmem
  exact absurd hmem (by decide)

theorem compareDigest_of_ascii {a b : List Char} (ha : ∀ c ∈ a, isAscii c = true)
    (hb : ∀ c ∈ b, isAscii c = true) : compareDigest a b = .ok (a = b) := by
  rw [compareDigest, if_pos]
  rw [Bool.and_eq_true, List.all_eq_true, List.all_eq_true]
  exact ⟨ha, hb⟩

theorem compareDigest_of_mem {a b : List Char} (hc : c ∈ a) (hascii : isAscii c = false) :
    compareDigest a b = .error .typeError := by
  rw [compareDigest, if_neg]
  intro hboth
  rw [Bool.and_eq_true, List.all_eq_true] at hboth
  exact absurd (hboth.1 c hc) (by simp [hascii])

end Strings

/-! ## One request -/

section Requests

variable {apiKey : ApiKey} {authorization : Option HeaderText} {value : HeaderText}
  {token : List Char}

/-- A header carries a token exactly if it is cut into the scheme and the token. -/
theorem carries_iff : Carries value token ↔ ' ' ∈ value.chars ∧
    (partition ' ' value.chars).1.map lower = "bearer".toList ∧
    (partition ' ' value.chars).2 = token := by
  constructor
  · intro h
    obtain ⟨scheme, hsplit, hscheme⟩ := h
    have hlatin1 : ∀ c ∈ scheme, c.toNat < 256 := fun c hc =>
      value.latin1 c (hsplit ▸ List.mem_append_left _ hc)
    rw [isBearer_iff hlatin1] at hscheme
    rw [hsplit, partition_append (space_notMem hscheme)]
    exact ⟨by simp, hscheme, rfl⟩
  · intro h
    obtain ⟨hspace, hscheme, rfl⟩ := h
    obtain ⟨head, tail, hpartition, hsplit, -⟩ := partition_of_mem hspace
    rw [hpartition] at hscheme ⊢
    refine ⟨head, hsplit, (isBearer_iff fun c hc => ?_).mpr hscheme⟩
    exact value.latin1 c (hsplit ▸ List.mem_append_left _ hc)

theorem Carries.unique {token' : List Char} (h : Carries value token) (h' : Carries value token') :
    token = token' :=
  (carries_iff.mp h).2.2.symm.trans (carries_iff.mp h').2.2

/-- The answer to a header: a token outside ASCII is the one that is not judged. -/
inductive Judged (apiKey : ApiKey) (value : HeaderText) : Except AuthError Unit → Prop
  | accepted : Carries value apiKey.chars → Judged apiKey value (.ok ())
  | rejected : ¬ Carries value apiKey.chars →
      (∀ token, Carries value token → ∀ c ∈ token, isAscii c = true) →
      Judged apiKey value (.error (.http invalidApiKey))
  | escaped {token : List Char} {c : Char} : Carries value token → c ∈ token →
      isAscii c = false → Judged apiKey value (.error .typeError)

theorem requireBearer_of_otherScheme
    (h : (partition ' ' value.chars).1.map lower ≠ "bearer".toList) :
    requireBearer apiKey (some value) = .error (.http invalidApiKey) :=
  if_pos h

theorem requireBearer_of_compareDigest {same : Except AuthError Bool}
    (hscheme : (partition ' ' value.chars).1.map lower = "bearer".toList)
    (hsame : compareDigest (partition ' ' value.chars).2 apiKey.chars = same) :
    requireBearer apiKey (some value) =
      same.bind fun same => if same then .ok () else .error (.http invalidApiKey) := by
  subst hsame
  exact if_neg (not_not.mpr hscheme)

theorem requireBearer_judged (apiKey : ApiKey) (value : HeaderText) :
    Judged apiKey value (requireBearer apiKey (some value)) := by
  by_cases hscheme : (partition ' ' value.chars).1.map lower = "bearer".toList
  · by_cases hascii : ∀ c ∈ (partition ' ' value.chars).2, isAscii c = true
    · rw [requireBearer_of_compareDigest hscheme (compareDigest_of_ascii hascii apiKey.ascii)]
      by_cases hsame : (partition ' ' value.chars).2 = apiKey.chars
      · -- without a space there is no token, but the key is not empty
        have hspace : ' ' ∈ value.chars := by
          by_contra hspace
          rw [partition_of_notMem hspace] at hsame
          exact apiKey.nonempty hsame.symm
        simp only [Except.bind, hsame, decide_true, if_true]
        exact .accepted (carries_iff.mpr ⟨hspace, hscheme, hsame⟩)
      · simp only [Except.bind, hsame, decide_false, Bool.false_eq_true, if_false]
        refine .rejected (fun h => hsame (carries_iff.mp h).2.2) fun token htoken => ?_
        rwa [← (carries_iff.mp htoken).2.2]
    · obtain ⟨c, hc, hother⟩ : ∃ c ∈ (partition ' ' value.chars).2, isAscii c = false := by
        simpa using hascii
      have hspace : ' ' ∈ value.chars := by
        by_contra hspace
        rw [partition_of_notMem hspace] at hc
        exact absurd hc List.not_mem_nil
      rw [requireBearer_of_compareDigest hscheme (compareDigest_of_mem hc hother)]
      exact .escaped (carries_iff.mpr ⟨hspace, hscheme, rfl⟩) hc hother
  · rw [requireBearer_of_otherScheme hscheme]
    have hnone : ∀ token, ¬ Carries value token := fun token h => hscheme (carries_iff.mp h).2.1
    exact .rejected (hnone _) fun token h => absurd h (hnone token)

/-- The header carries a token that is not ASCII. -/
def CarriesOther (value : HeaderText) : Prop :=
  ∃ token, Carries value token ∧ ∃ c ∈ token, isAscii c = false

theorem decides_none (apiKey : ApiKey) :
    Decides apiKey none (.error (.http notAuthenticated)) where
  absent _ := rfl
  accepted := by simp
  rejected := by simp
  escapes _ h := ⟨_, (Except.error.inj h).symm⟩

theorem decides_of_carries (h : Carries value apiKey.chars) :
    Decides apiKey (some value) (.ok ()) where
  absent := by simp
  accepted := by simpa using h
  rejected := by simpa using h
  escapes := by simp

theorem decides_of_not_carries (h : ¬ Carries value apiKey.chars) :
    Decides apiKey (some value) (.error (.http invalidApiKey)) where
  absent := by simp
  accepted := by simpa using h
  rejected := by simp
  escapes _ h := ⟨_, (Except.error.inj h).symm⟩

/-- The dependency decides on a request exactly if the header does not carry a token outside
ASCII. -/
theorem requireBearer_decides_iff (apiKey : ApiKey) (authorization : Option HeaderText) :
    Decides apiKey authorization (requireBearer apiKey authorization) ↔
      ∀ value ∈ authorization, ¬ CarriesOther value := by
  cases authorization with
  | none =>
      constructor
      · intro _ value hvalue
        exact absurd hvalue (by simp)
      · intro _
        exact decides_none apiKey
  | some value =>
      have hjudged := requireBearer_judged apiKey value
      generalize requireBearer apiKey (some value) = answer at hjudged ⊢
      have hvalue : (∀ v ∈ some value, ¬ CarriesOther v) ↔ ¬ CarriesOther value := by simp
      rw [hvalue]
      cases hjudged with
      | accepted hcarries =>
          apply iff_of_true (decides_of_carries hcarries)
          intro hother
          obtain ⟨token, htoken, c, hc, hascii⟩ := hother
          obtain rfl := htoken.unique hcarries
          exact absurd (apiKey.ascii c hc) (by simp [hascii])
      | rejected hnot hascii =>
          apply iff_of_true (decides_of_not_carries hnot)
          intro hother
          obtain ⟨token, htoken, c, hc, hother⟩ := hother
          exact absurd (hascii token htoken c hc) (by simp [hother])
      | @escaped token c htoken hc hascii =>
          apply iff_of_false
          · intro h
            obtain ⟨http, heq⟩ := h.escapes _ rfl
            exact absurd heq (by simp)
          · intro h
            exact h ⟨token, htoken, c, hc, hascii⟩

/-- `BOT_API_KEY=secret` -/
def secretKey : ApiKey := ⟨"secret".toList, by decide, List.all_eq_true.mp (by decide)⟩

/-- `Authorization: Bearer sécret` -/
def accentedHeader : HeaderText := ⟨"Bearer sécret".toList, by simp⟩

/-- The request ends in a `TypeError`, without the key. -/
theorem requireBearer_escapes :
    requireBearer secretKey (some accentedHeader) = .error .typeError ∧
      ¬ Decides secretKey (some accentedHeader)
        (requireBearer secretKey (some accentedHeader)) := by
  have hanswer : requireBearer secretKey (some accentedHeader) = .error .typeError := by
    decide +kernel
  refine ⟨hanswer, fun h => ?_⟩
  obtain ⟨http, heq⟩ := h.escapes _ hanswer
  exact absurd heq (by simp)

end Requests

/-! ## In front of an endpoint -/

section Endpoint

variable {Obj : Type} (framework : Framework Obj) {codec : JsonCodec} (columns : Columns codec)
  (guildId : ℤ)

/-- The answer to a request that has yet to be authenticated. -/
inductive GuardedAnswer where
  | refused (exc : HttpException)
  /-- 500: nothing catches a `TypeError`. -/
  | uncaught
  | served (answer : HttpAnswer)
  deriving DecidableEq

/-- `POST /role-sync` with its dependency. -/
def guardedRoleSync (apiKey : ApiKey) (authorization : Option HeaderText) (payload : JsonValue) :
    RoleM GuardedAnswer :=
  match requireBearer apiKey authorization with
  | .error (.http exc) => return .refused exc
  | .error .typeError => return .uncaught
  | .ok () => do
      let answer ← postRoleSync framework columns guildId payload
      return .served answer

variable {framework columns guildId} {apiKey : ApiKey} {authorization : Option HeaderText}
  {payload : JsonValue} {w w' : World} {trace : List (Exchange RoleEffects)}
  {answer : GuardedAnswer}

/-- Without the key nothing is served, called or changed, the `TypeError` included. -/
theorem guardedRoleSync_refused (h : ∀ value ∈ authorization, ¬ Carries value apiKey.chars)
    (hrun : (guardedRoleSync framework columns guildId apiKey authorization payload).Runs
      roleMachine w trace answer w') :
    (∀ served, answer ≠ .served served) ∧ trace = [] ∧ w' = w := by
  have herror : ∃ exc, requireBearer apiKey authorization = .error exc := by
    cases authorization with
    | none => exact ⟨_, rfl⟩
    | some value =>
        have hjudged := requireBearer_judged apiKey value
        cases hanswer : requireBearer apiKey (some value) with
        | error exc => exact ⟨exc, rfl⟩
        | ok _ =>
            rw [hanswer] at hjudged
            cases hjudged with
            | accepted hcarries => exact absurd hcarries (h value rfl)
  obtain ⟨exc, hexc⟩ := herror
  unfold guardedRoleSync at hrun
  rw [hexc] at hrun
  cases exc with
  | http exc =>
      obtain ⟨rfl, rfl, rfl⟩ := hrun
      exact ⟨by simp, rfl, rfl⟩
  | typeError =>
      obtain ⟨rfl, rfl, rfl⟩ := hrun
      exact ⟨by simp, rfl, rfl⟩

end Endpoint

end MomBot.Sidecar
