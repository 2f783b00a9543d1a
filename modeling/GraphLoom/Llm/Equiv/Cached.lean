import GraphLoom.Cache.Equiv.Json
import GraphLoom.Foundation.Fallible
import GraphLoom.Llm.Cached

/-!
# The cache is transparent

Over any sequence of calls, the models behind the cache answer as the providers do
(`cached_transparent`).  The invariant is that what the keys of the calls hold are the answers to
them (`Sound`), and that a key holds an answer once it was given.  What a call can do is said once
(`Outcome`), and each part of the claim is read off it.
-/

namespace GraphLoom.Llm

open Foundation Json Cache CachedModelResult

variable {β α γ ε : Type} [Text β] [Serde α] [Serde γ] [Serde ε]

/-! ### Responses in the storage -/

/-- The response that a key holds. -/
def storedResponse (storage : Storage β) (key : String) : Option α :=
  ((held storage key).bind CachedModelResult.fromValue).map (·.response.wire)

variable {storage storage' : Storage β} {key other : String}

omit [Serde γ] [Serde ε] in
theorem storedResponse_congr (h : storage'.lookup key = storage.lookup key) :
    (storedResponse storage' key : Option α) = storedResponse storage key := by
  unfold storedResponse held
  rw [h]

theorem CachedModelResult.fromValue_toValue (response : ModelResponse α) :
    fromValue (toValue ⟨response, []⟩) =
      some ⟨⟨response.wire, ⟨.notUsed⟩⟩, []⟩ := by
  have hresponse : Map.get (Map.ofFields [("response", some (Serde.toValue response.wire)),
      ("metrics", some (.object []))]) "response" = some (Serde.toValue response.wire) := by
    simp only [Map.ofFields, List.foldl]
    rw [Map.get_insert_of_ne (by decide), Map.get_insert_self]
  have hmetrics : Map.get (Map.ofFields [("response", some (Serde.toValue response.wire)),
      ("metrics", some (.object []))]) "metrics" = some (.object []) := by
    simp only [Map.ofFields, List.foldl]
    rw [Map.get_insert_self]
  simp only [toValue, fromValue, hresponse, hmetrics,
    ModelResponse.fromValue, Serde.fromValue_toValue, Option.map_some, Option.bind_eq_bind,
    Option.bind_some]

/-- A response that is held is read, and stays. -/
theorem readCached_spec (key : String) (storage : Storage β) :
    SameButDeleted key storage (readCached key storage : Option (CachedModelResult α) × _).2 ∧
      ((readCached key storage).1.map fun cached : CachedModelResult α => cached.response.wire) =
        storedResponse storage key ∧
      ((storedResponse storage key : Option α) ≠ none →
        (readCached key storage : Option (CachedModelResult α) × _).2 = storage) := by
  obtain ⟨hget, hsame, hkeep⟩ := JsonCache.get_spec key storage
  unfold readCached storedResponse
  cases hread : JsonCache.get key storage with
  | mk bytes read =>
    rw [hread] at hget hsame hkeep
    dsimp only at hget hsame hkeep
    subst hget
    cases hheld : held storage key with
    | none => exact ⟨hsame, rfl, fun h => absurd rfl h⟩
    | some value =>
      have hread : read = storage := hkeep (by rw [hheld]; exact Option.some_ne_none _)
      simp only [Option.map_some, Text.fromSlice_toVec, Option.bind_some]
      cases (fromValue value : Option (CachedModelResult α)) with
      | none => exact ⟨JsonCache.delete_spec hsame, rfl, fun h => absurd rfl h⟩
      | some cached => exact ⟨hsame, rfl, fun _ => hread⟩

/-- A response that is written is held. -/
theorem writeCached_spec (key : String) (response : ModelResponse α) (storage : Storage β) :
    ∃ storage', writeCached key response storage = (.ok (), storage') ∧
      storedResponse storage' key = some response.wire ∧
      ∀ other, other ≠ key → storage'.lookup other = storage.lookup other := by
  have hnull : toValue ⟨response, []⟩ ≠ .null := by
    intro h
    cases h
  obtain ⟨storage', hset, hheld, hother⟩ := JsonCache.set_spec key hnull storage
  refine ⟨storage', ?_, ?_, hother⟩
  · unfold writeCached
    dsimp only
    rw [hset]
  · rw [storedResponse, hheld, Option.bind_some, fromValue_toValue,
      Option.map_some]

/-! ### What a call can do -/

/-- The outcomes of a call: what it is told, and the world after it.  `stored` is the response that
a key holds, and `returned` what the provider returns when it is asked. -/
inductive Outcome (valid : Except LlmError Unit) (bypasses : Bool)
    (cacheKey : Except LlmError String) (stored : Storage β → String → Option α) (call : Call)
    (returned : Except LlmError (ModelResponse α)) (world : World β) :
    Except LlmError (ModelResponse α) → World β → Prop
  | refused {error : LlmError} (h : valid = .error error) : Outcome _ _ _ _ _ _ _ (.error error) world
  | bypassed (h : valid = .ok ()) (hbypass : bypasses = true) :
    Outcome _ _ _ _ _ _ _ returned ⟨world.storage, world.asked ++ [call]⟩
  | unkeyed {error : LlmError} (h : valid = .ok ()) (hbypass : bypasses = false)
    (hkey : cacheKey = .error error) : Outcome _ _ _ _ _ _ _ (.error error) world
  | hit {key : String} {wire : α} (h : valid = .ok ()) (hbypass : bypasses = false)
    (hkey : cacheKey = .ok key) (hstored : stored world.storage key = some wire) :
    Outcome _ _ _ _ _ _ _ (.ok ⟨wire, ⟨.hit⟩⟩) world
  | failed {key : String} {error : LlmError} {storage : Storage β} (h : valid = .ok ())
    (hbypass : bypasses = false) (hkey : cacheKey = .ok key)
    (hstored : stored world.storage key = none) (hreturned : returned = .error error)
    (hsame : SameButDeleted key world.storage storage) :
    Outcome _ _ _ _ _ _ _ (.error error) ⟨storage, world.asked ++ [call]⟩
  | answered {key : String} {response : ModelResponse α} {storage : Storage β} (h : valid = .ok ())
    (hbypass : bypasses = false) (hkey : cacheKey = .ok key)
    (hstored : stored world.storage key = none) (hreturned : returned = .ok response)
    (hholds : stored storage key = some response.wire)
    (hother : ∀ other, other ≠ key → storage.lookup other = world.storage.lookup other) :
    Outcome _ _ _ _ _ _ _ (.ok ⟨response.wire, ⟨.miss⟩⟩) ⟨storage, world.asked ++ [call]⟩

/-- What a call of one of the cached models does. -/
theorem cachedCall_outcome (valid : Except LlmError Unit) (bypasses : Bool)
    (cacheKey : Except LlmError String) (outage : ℕ → Option LlmError) (call : Call)
    (answer : Except LlmError (ModelResponse α)) (world : World β) :
    let called := cachedCall valid bypasses cacheKey (ask outage call answer) world
    Outcome valid bypasses cacheKey storedResponse call
      (returned (outage world.asked.length) answer) world called.1 called.2 := by
  intro called
  rcases hcalled : called with ⟨reply, next⟩
  replace hcalled : cachedCall valid bypasses cacheKey (ask outage call answer) world =
    (reply, next) := hcalled
  unfold cachedCall at hcalled
  cases hvalid : valid with
  | error error =>
    rw [hvalid] at hcalled
    obtain ⟨rfl, rfl⟩ := Prod.mk.inj hcalled
    exact .refused rfl
  | ok _ =>
    rw [hvalid] at hcalled
    cases hbypass : bypasses with
    | true =>
      rw [hbypass] at hcalled
      obtain ⟨rfl, rfl⟩ := Prod.mk.inj hcalled
      exact .bypassed rfl rfl
    | false =>
      cases hkey : cacheKey with
      | error error =>
        rw [hbypass, hkey] at hcalled
        obtain ⟨rfl, rfl⟩ := Prod.mk.inj hcalled
        exact .unkeyed rfl rfl rfl
      | ok key =>
        obtain ⟨hsame, hread, hkeep⟩ := readCached_spec (α := α) key world.storage
        simp only [hbypass, hkey, Bool.false_eq_true, if_false] at hcalled
        cases hcached : (readCached key world.storage : Option (CachedModelResult α) × _) with
        | mk cached storage =>
          rw [hcached] at hcalled hsame hread hkeep
          dsimp only at hcalled hsame hread hkeep
          cases cached with
          | some cached =>
            have hstored : storedResponse world.storage key = some cached.response.wire := hread.symm
            rw [hkeep (by rw [hstored]; exact Option.some_ne_none _)] at hcalled
            obtain ⟨rfl, rfl⟩ := Prod.mk.inj hcalled
            exact .hit rfl rfl rfl hstored
          | none =>
            have hstored : (storedResponse world.storage key : Option α) = none := hread.symm
            unfold ask at hcalled
            dsimp only at hcalled
            cases hreturned : returned (outage world.asked.length) answer with
            | error error =>
              rw [hreturned] at hcalled
              obtain ⟨rfl, rfl⟩ := Prod.mk.inj hcalled
              exact .failed rfl rfl rfl hstored rfl hsame
            | ok response =>
              rw [hreturned] at hcalled
              obtain ⟨storage', hwrite, hholds, hother⟩ :=
                writeCached_spec key (response.withCacheStatus .miss) storage
              dsimp only at hcalled
              rw [hwrite] at hcalled
              obtain ⟨rfl, rfl⟩ := Prod.mk.inj hcalled
              exact .answered rfl rfl rfl hstored rfl hholds fun other hne =>
                (hother other hne).trans (hsame.lookup hne)

omit [Text β] [Serde α] [Serde γ] [Serde ε] in
theorem Outcome.map {δ : Type} (f : α → δ) {valid : Except LlmError Unit} {bypasses : Bool}
    {cacheKey : Except LlmError String} {stored : Storage β → String → Option α} {call : Call}
    {returned reply : Except LlmError (ModelResponse α)} {world next : World β}
    (h : Outcome valid bypasses cacheKey stored call returned world reply next) :
    Outcome valid bypasses cacheKey (fun storage key => (stored storage key).map f) call
      (returned.map (·.map f)) world (reply.map (·.map f)) next := by
  cases h with
  | refused h => exact .refused h
  | bypassed h hbypass => exact .bypassed h hbypass
  | unkeyed h hbypass hkey => exact .unkeyed h hbypass hkey
  | hit h hbypass hkey hstored =>
    exact .hit h hbypass hkey (by rw [hstored, Option.map_some])
  | failed h hbypass hkey hstored hreturned hsame =>
    exact .failed h hbypass hkey (by rw [hstored, Option.map_none]) (by rw [hreturned]; rfl) hsame
  | @answered key response storage h hbypass hkey hstored hreturned hholds hother =>
    have hreturned' : returned.map (·.map f) = .ok (response.map f) := by
      rw [hreturned]
      rfl
    have hholds' : (stored storage key).map f = some (response.map f).wire := by
      rw [hholds]
      rfl
    exact .answered h hbypass hkey (by rw [hstored, Option.map_none]) hreturned' hholds' hother

/-! ### Calls of both models -/

inductive Kind where
  | completion
  | embedding
deriving DecidableEq

def Call.kind : Call → Kind
  | .complete _ => .completion
  | .embed _ => .embedding

def Call.bypasses : Call → Bool
  | .complete request => request.bypasses
  | .embed request => request.bypasses

/-- The arguments of a call that its key is made of. -/
def Call.parameters : Call → Value
  | .complete request => filterCacheParameters request.kwargs
  | .embed request => filterCacheParameters request.kwargs

def Call.cacheKey (digest : Value → Except LlmError String) : Call → Except LlmError String
  | .complete request => completionRequestCacheKey digest request
  | .embed request => embeddingRequestCacheKey digest request

def Models.validateRequest (models : Models γ ε) : Call → Except LlmError Unit
  | .complete request => models.completion.validateRequest request
  | .embed request => models.embedding.validateRequest request

/-- The answer to a call, when the provider does not fail. -/
def Models.answer (models : Models γ ε) : Call → Reply γ ε
  | .complete request => (models.completion.complete request).map (·.map Sum.inl)
  | .embed request => (models.embedding.embed request).map (·.map Sum.inr)

/-- The response that a key holds, for calls of a kind. -/
def storedFor (kind : Kind) (storage : Storage β) (key : String) : Option (γ ⊕ ε) :=
  match kind with
  | .completion => (storedResponse storage key).map Sum.inl
  | .embedding => (storedResponse storage key).map Sum.inr

variable {digest : Value → Except LlmError String} {models : Models γ ε} {call : Call}

theorem storedFor_congr (kind : Kind) (h : storage'.lookup key = storage.lookup key) :
    (storedFor kind storage' key : Option (γ ⊕ ε)) = storedFor kind storage key := by
  cases kind with
  | completion => exact congrArg (Option.map Sum.inl) (storedResponse_congr h)
  | embedding => exact congrArg (Option.map Sum.inr) (storedResponse_congr h)

omit [Serde α] [Serde γ] [Serde ε] in
theorem returned_map {δ : Type} (f : α → δ) (outage : Option LlmError)
    (answer : Except LlmError (ModelResponse α)) :
    (returned outage answer).map (·.map f) = returned outage (answer.map (·.map f)) := by
  cases outage with
  | none => rfl
  | some error => rfl

/-- What a call does, of whichever model it is. -/
theorem step_outcome (digest : Value → Except LlmError String) (models : Models γ ε)
    (storage : Storage β) (world : World β) (call : Call) :
    Outcome (models.validateRequest call) call.bypasses (call.cacheKey digest)
      (storedFor call.kind) call (returned (models.outage world.asked.length) (models.answer call))
      world ((cachedModels digest models storage).step world call).1
      ((cachedModels digest models storage).step world call).2 := by
  cases call with
  | complete request =>
    have h := (cachedCall_outcome (models.completion.validateRequest request) request.bypasses
      (completionRequestCacheKey digest request) models.outage (.complete request)
      (models.completion.complete request) world).map (Sum.inl (β := ε))
    rw [returned_map] at h
    exact h
  | embed request =>
    have h := (cachedCall_outcome (models.embedding.validateRequest request) request.bypasses
      (embeddingRequestCacheKey digest request) models.outage (.embed request)
      (models.embedding.embed request) world).map (Sum.inr (α := γ))
    rw [returned_map] at h
    exact h

/-- The outcomes of a call, of whichever model it is. -/
abbrev CallOutcome (digest : Value → Except LlmError String) (models : Models γ ε) (call : Call)
    (world : World β) (reply : Reply γ ε) (next : World β) : Prop :=
  Outcome (models.validateRequest call) call.bypasses (call.cacheKey digest) (storedFor call.kind)
    call (returned (models.outage world.asked.length) (models.answer call)) world reply next

omit [Serde α] [Serde γ] [Serde ε] in
/-- What is returned as a response is the answer. -/
theorem answer_of_returned {outage : Option LlmError} {answer : Except LlmError (ModelResponse α)}
    {response : ModelResponse α} (h : returned outage answer = .ok response) :
    answer = .ok response := by
  cases outage with
  | none => exact h
  | some error => cases h

/-! ### Sequences of calls -/

/-- The call uses the cache, with this key. -/
structure UsesKey (digest : Value → Except LlmError String) (models : Models γ ε) (call : Call)
    (key : String) : Prop where
  valid : models.validateRequest call = .ok ()
  cached : call.bypasses = false
  cacheKey : call.cacheKey digest = .ok key

/-- The call uses the cache. -/
def UsesCache (models : Models γ ε) (call : Call) : Prop :=
  models.validateRequest call = .ok () ∧ call.bypasses = false

/-- The keys of the calls exist, and tell their kinds and their parameters apart. -/
structure FaithfulKeys (digest : Value → Except LlmError String) (models : Models γ ε)
    (calls : List Call) : Prop where
  total : ∀ call ∈ calls, UsesCache models call → ∃ hash, digest call.parameters = .ok hash
  distinct : ∀ call ∈ calls, ∀ other ∈ calls, UsesCache models call → UsesCache models other →
    digest call.parameters = digest other.parameters →
      call.kind = other.kind ∧ call.parameters = other.parameters

/-- The answer to a call that uses the cache is a function of its kind and its parameters. -/
def AnswersParameters (models : Models γ ε) : Prop :=
  ∀ call other, UsesCache models call → UsesCache models other → call.kind = other.kind →
    call.parameters = other.parameters → models.answer call = models.answer other

/-- A response that is held for one of the calls is the answer to it. -/
def Sound (digest : Value → Except LlmError String) (models : Models γ ε) (calls : List Call)
    (storage : Storage β) : Prop :=
  ∀ call ∈ calls, ∀ key wire, UsesKey digest models call key →
    storedFor call.kind storage key = some wire → (models.answer call).map (·.wire) = .ok wire

omit [Serde γ] [Serde ε] in
/-- The key of a call that uses the cache is made of the digest of its parameters. -/
theorem UsesKey.digest_eq (h : UsesKey digest models call key) :
    ∃ hash, digest call.parameters = .ok hash ∧ key = hash ++ "_v" ++ cacheVersion := by
  have hkey := h.cacheKey
  cases call with
  | complete request =>
    obtain ⟨_, -, hkey⟩ := bind_eq_ok.mp hkey
    obtain ⟨hash, hdigest, hkey⟩ := bind_eq_ok.mp hkey
    exact ⟨hash, hdigest, (Except.ok.inj hkey).symm⟩
  | embed request =>
    obtain ⟨_, -, hkey⟩ := bind_eq_ok.mp hkey
    obtain ⟨hash, hdigest, hkey⟩ := bind_eq_ok.mp hkey
    exact ⟨hash, hdigest, (Except.ok.inj hkey).symm⟩

omit [Serde γ] [Serde ε] in
/-- A call that uses the cache has a key, for requests that are valid are canonical. -/
theorem FaithfulKeys.usesKey {calls : List Call} (h : FaithfulKeys digest models calls)
    (hcall : call ∈ calls) (hcache : UsesCache models call) :
    ∃ key, UsesKey digest models call key := by
  obtain ⟨hash, hdigest⟩ := h.total call hcall hcache
  refine ⟨hash ++ "_v" ++ cacheVersion, hcache.1, hcache.2, ?_⟩
  cases call with
  | complete request =>
    have hvalid := models.completion.canonical request hcache.1
    exact bind_eq_ok.mpr ⟨(), hvalid, bind_eq_ok.mpr ⟨hash, hdigest, rfl⟩⟩
  | embed request =>
    have hvalid := models.embedding.canonical request hcache.1
    exact bind_eq_ok.mpr ⟨(), hvalid, bind_eq_ok.mpr ⟨hash, hdigest, rfl⟩⟩

omit [Serde γ] [Serde ε] in
/-- Calls with one key have one kind and one answer. -/
theorem FaithfulKeys.same_answer {calls : List Call} {other : Call}
    (h : FaithfulKeys digest models calls) (hanswers : AnswersParameters models)
    (hcall : call ∈ calls) (hother : other ∈ calls) (hkey : UsesKey digest models call key)
    (hkey' : UsesKey digest models other key) :
    call.kind = other.kind ∧ models.answer call = models.answer other := by
  obtain ⟨hash, hdigest, heq⟩ := hkey.digest_eq
  obtain ⟨hash', hdigest', heq'⟩ := hkey'.digest_eq
  have hhash : hash = hash' := by
    simpa [String.append_assoc] using heq.symm.trans heq'
  have hsame : digest call.parameters = digest other.parameters := by
    rw [hdigest, hdigest', hhash]
  obtain ⟨hkind, hparameters⟩ := h.distinct call hcall other hother ⟨hkey.valid, hkey.cached⟩
    ⟨hkey'.valid, hkey'.cached⟩ hsame
  exact ⟨hkind, hanswers call other ⟨hkey.valid, hkey.cached⟩ ⟨hkey'.valid, hkey'.cached⟩ hkind
    hparameters⟩

/-- The call was told a response earlier on. -/
def WasAnswered (digest : Value → Except LlmError String) (models : Models γ ε) (storage : Storage β)
    (earlier : List Call) (call : Call) : Prop :=
  ∃ before after response, earlier = before ++ call :: after ∧
    ((cachedModels digest models storage).step
      ((cachedModels digest models storage).run before) call).1 = .ok response

/-- What holds between the calls. -/
structure Invariant (digest : Value → Except LlmError String) (models : Models γ ε)
    (calls : List Call) (storage : Storage β) (earlier : List Call) (world : World β) : Prop where
  sound : Sound digest models calls world.storage
  kept : ∀ call key, UsesKey digest models call key →
    WasAnswered digest models storage earlier call →
    (storedFor call.kind world.storage key : Option (γ ⊕ ε)) ≠ none

variable {calls earlier : List Call} {world : World β}

/-- The call that was answered is the last one, or one before it. -/
theorem WasAnswered.concat {last : Call}
    (h : WasAnswered digest models storage (earlier ++ [last]) call) :
    WasAnswered digest models storage earlier call ∨ call = last ∧
      ∃ response, ((cachedModels digest models storage).step
        ((cachedModels digest models storage).run earlier) call).1 = .ok response := by
  obtain ⟨before, after, response, hsplit, hanswer⟩ := h
  rcases List.eq_nil_or_concat after with rfl | ⟨after, last', rfl⟩
  · obtain ⟨rfl, hlast⟩ := List.append_inj' hsplit rfl
    exact .inr ⟨(List.cons.inj hlast).1.symm, response, hanswer⟩
  · rw [List.concat_eq_append, ← List.cons_append, ← List.append_assoc] at hsplit
    obtain ⟨rfl, -⟩ := List.append_inj' hsplit rfl
    exact .inl ⟨before, after, response, rfl, hanswer⟩

/-- Entries that other keys have kept, and that are deleted only where nothing was held, keep what
is held sound. -/
theorem Sound.of_sameButDeleted (h : Sound digest models calls storage)
    (hsame : SameButDeleted key storage storage') : Sound digest models calls storage' := by
  intro call hcall other wire huses hstored
  rcases hsame other with hlookup | ⟨-, hlookup⟩
  · rw [storedFor_congr call.kind hlookup] at hstored
    exact h call hcall other wire huses hstored
  · have hnone : (storedFor call.kind storage' other : Option (γ ⊕ ε)) = none := by
      cases call.kind with
      | completion => simp [storedFor, storedResponse, held, hlookup]
      | embedding => simp [storedFor, storedResponse, held, hlookup]
    rw [hnone] at hstored
    cases hstored

/-- A key that lost nothing that it held still holds it. -/
theorem kept_of_sameButDeleted {kind kind' : Kind} (hsame : SameButDeleted key storage storage')
    (hstored : (storedFor kind' storage key : Option (γ ⊕ ε)) = none)
    (hkind : other = key → kind = kind')
    (h : (storedFor kind storage other : Option (γ ⊕ ε)) ≠ none) :
    (storedFor kind storage' other : Option (γ ⊕ ε)) ≠ none := by
  by_cases hkey : other = key
  · rw [hkind hkey, hkey] at h
    exact absurd hstored h
  · rw [storedFor_congr kind (hsame.lookup hkey)]
    exact h

section

variable {reply : Reply γ ε} {next : World β} (h : CallOutcome digest models call world reply next)
include h

/-- One call keeps what is held sound. -/
theorem CallOutcome.sound
    (hfaithful : FaithfulKeys digest models calls) (hanswers : AnswersParameters models)
    (hcall : call ∈ calls) (hsound : Sound digest models calls world.storage) :
    Sound digest models calls next.storage := by
  cases h with
  | refused | bypassed | unkeyed | hit => exact hsound
  | failed _ _ _ _ _ hsame => exact hsound.of_sameButDeleted hsame
  | @answered key' _ _ hvalid hbypass hkey _ hreturned hholds hother =>
    intro other hmem key wire huses hstored
    dsimp only at hstored
    by_cases heq : key = key'
    · subst heq
      obtain ⟨hkind, hanswer⟩ := hfaithful.same_answer hanswers hmem hcall huses
        ⟨hvalid, hbypass, hkey⟩
      rw [hkind, hholds] at hstored
      rw [hanswer, answer_of_returned hreturned]
      exact congrArg Except.ok (Option.some.inj hstored)
    · rw [storedFor_congr other.kind (hother key heq)] at hstored
      exact hsound other hmem key wire huses hstored

/-- One call keeps a response that is held. -/
theorem CallOutcome.kept
    (hfaithful : FaithfulKeys digest models calls) (hanswers : AnswersParameters models)
    (hcall : call ∈ calls) {other : Call} (hmem : other ∈ calls)
    (huses : UsesKey digest models other key)
    (hheld : (storedFor other.kind world.storage key : Option (γ ⊕ ε)) ≠ none) :
    (storedFor other.kind next.storage key : Option (γ ⊕ ε)) ≠ none := by
  cases h with
  | refused | bypassed | unkeyed | hit => exact hheld
  | @failed key' _ _ hvalid hbypass hkey hstored _ hsame =>
    refine kept_of_sameButDeleted hsame hstored (fun heq => ?_) hheld
    subst heq
    exact (hfaithful.same_answer hanswers hmem hcall huses ⟨hvalid, hbypass, hkey⟩).1
  | @answered key' _ _ hvalid hbypass hkey _ _ hholds hother =>
    by_cases heq : key = key'
    · subst heq
      obtain ⟨hkind, -⟩ := hfaithful.same_answer hanswers hmem hcall huses ⟨hvalid, hbypass, hkey⟩
      rw [hkind, hholds]
      exact Option.some_ne_none _
    · rw [storedFor_congr other.kind (hother key heq)]
      exact hheld

/-- After a call was told a response, its key holds one. -/
theorem CallOutcome.held (huses : UsesKey digest models call key) {response : ModelResponse (γ ⊕ ε)}
    (hreply : reply = .ok response) :
    storedFor call.kind next.storage key = some response.wire := by
  have hkey := huses.cacheKey
  cases h with
  | refused | unkeyed | failed => cases hreply
  | bypassed _ hbypass => exact absurd (huses.cached.symm.trans hbypass) (by decide)
  | hit _ _ hkey' hstored =>
    obtain rfl := Except.ok.inj (hkey.symm.trans hkey')
    obtain rfl := Except.ok.inj hreply
    exact hstored
  | answered _ _ hkey' _ _ hholds _ =>
    obtain rfl := Except.ok.inj (hkey.symm.trans hkey')
    obtain rfl := Except.ok.inj hreply
    exact hholds

end

/-- One call keeps the invariant. -/
theorem Invariant.step (hfaithful : FaithfulKeys digest models calls)
    (hanswers : AnswersParameters models) (hcall : call ∈ calls) (hearlier : ∀ c ∈ earlier, c ∈ calls)
    (h : Invariant digest models calls storage earlier
      ((cachedModels digest models storage).run earlier)) :
    Invariant digest models calls storage (earlier ++ [call])
      ((cachedModels digest models storage).step
        ((cachedModels digest models storage).run earlier) call).2 := by
  have hout : CallOutcome digest models call _ _ _ := step_outcome digest models storage
    ((cachedModels digest models storage).run earlier) call
  refine ⟨hout.sound hfaithful hanswers hcall h.sound, fun other key huses hanswered => ?_⟩
  rcases hanswered.concat with hbefore | ⟨rfl, response, hreply⟩
  · have hmem : other ∈ calls := by
      obtain ⟨before, after, -, heq, -⟩ := hbefore
      exact hearlier other (by simp [heq])
    exact hout.kept hfaithful hanswers hcall hmem huses (h.kept other key huses hbefore)
  · rw [hout.held huses hreply]
    exact Option.some_ne_none _

/-- The calls keep the invariant. -/
theorem Invariant.run (hfaithful : FaithfulKeys digest models calls)
    (hanswers : AnswersParameters models) (hsound : Sound digest models calls storage)
    (earlier : List Call) (hearlier : ∀ c ∈ earlier, c ∈ calls) :
    Invariant digest models calls storage earlier
      ((cachedModels digest models storage).run earlier) := by
  induction earlier using List.reverseRecOn with
  | nil =>
    refine ⟨hsound, fun call key _ hanswered => ?_⟩
    obtain ⟨before, after, -, heq, -⟩ := hanswered
    exact absurd heq (by simp)
  | append_singleton earlier call ih =>
    have hmem : ∀ c ∈ earlier, c ∈ calls := fun c hc => hearlier c (List.mem_append_left _ hc)
    have hcall : call ∈ calls := hearlier call (by simp)
    rw [Machine.run_append]
    exact (ih hmem).step hfaithful hanswers hcall hmem

/-! ### Transparency -/

/-- What a provider returns, when it is asked, to a request; it refuses what is not valid. -/
def Models.returns (models : Models γ ε) (world : World β) (call : Call) :
    Except LlmError (ModelResponse (γ ⊕ ε)) := do
  models.validateRequest call
  returned (models.outage world.asked.length) (models.answer call)

/-- A reply without the status of the cache. -/
def wireOf (reply : Reply γ ε) : Except LlmError (γ ⊕ ε) := reply.map (·.wire)

/-- What holds of a call after the earlier ones. -/
structure Transparent (digest : Value → Except LlmError String) (models : Models γ ε)
    (storage : Storage β) (earlier : List Call) (call : Call) (world : World β) (reply : Reply γ ε)
    (next : World β) : Prop where
  /-- The reply is what the provider returns now, or it is not asked and the reply is its answer. -/
  value : wireOf reply = wireOf (models.returns world call) ∨
    next = world ∧ models.validateRequest call = .ok () ∧
      ∃ wire, reply = .ok ⟨wire, ⟨.hit⟩⟩ ∧ wireOf (models.answer call) = .ok wire
  /-- Nothing is stored when the reply is an error. -/
  error : ∀ error, reply = .error error →
    ∀ key, next.storage.lookup key = world.storage.lookup key ∨ next.storage.lookup key = none
  /-- An entry without a response is not returned, and replaced by the answer. -/
  damaged : ∀ key, UsesKey digest models call key →
    (storedFor call.kind world.storage key : Option (γ ⊕ ε)) = none →
      next.asked = world.asked ++ [call] ∧
      wireOf reply = wireOf (models.returns world call) ∧
      ∀ wire, wireOf reply = .ok wire → storedFor call.kind next.storage key = some wire
  /-- The provider is not asked for a key again. -/
  once : ∀ key other, UsesKey digest models call key → UsesKey digest models other key →
    WasAnswered digest models storage earlier other → next.asked = world.asked
  /-- A call that bypasses the cache does not read nor write it. -/
  bypassed : call.bypasses = true → reply = models.returns world call ∧
    next.storage = world.storage ∧
    ∀ storage', (cachedModels digest models storage).step ⟨storage', world.asked⟩ call =
      (reply, ⟨storage', next.asked⟩)

variable {reply : Reply γ ε} {next : World β}

omit [Text β] [Serde γ] [Serde ε] in
theorem returns_of_valid (h : models.validateRequest call = .ok ()) :
    models.returns world call =
      returned (models.outage world.asked.length) (models.answer call) := by
  unfold Models.returns
  rw [h]
  rfl

section

variable (h : CallOutcome digest models call world reply next)
include h

/-- What is told is what the provider returns, or its answer is held. -/
theorem CallOutcome.value (hfaithful : FaithfulKeys digest models calls) (hcall : call ∈ calls)
    (hsound : Sound digest models calls world.storage) :
    wireOf reply = wireOf (models.returns world call) ∨
      next = world ∧ models.validateRequest call = .ok () ∧
        ∃ wire, reply = .ok ⟨wire, ⟨.hit⟩⟩ ∧ wireOf (models.answer call) = .ok wire := by
  cases h with
  | refused hvalid =>
    left
    unfold Models.returns
    rw [hvalid]
    rfl
  | bypassed hvalid =>
    left
    rw [returns_of_valid hvalid]
  | unkeyed hvalid hbypass hkey =>
    obtain ⟨key, huses⟩ := hfaithful.usesKey hcall ⟨hvalid, hbypass⟩
    rw [huses.cacheKey] at hkey
    cases hkey
  | hit hvalid hbypass hkey hstored =>
    exact .inr ⟨rfl, hvalid, _, rfl, hsound call hcall _ _ ⟨hvalid, hbypass, hkey⟩ hstored⟩
  | failed hvalid _ _ _ hreturned =>
    left
    rw [returns_of_valid hvalid, hreturned]
  | answered hvalid _ _ _ hreturned =>
    left
    rw [returns_of_valid hvalid, hreturned]
    rfl

/-- An error is not stored. -/
theorem CallOutcome.error {error : LlmError} (hreply : reply = .error error) (key : String) :
    next.storage.lookup key = world.storage.lookup key ∨ next.storage.lookup key = none := by
  cases h with
  | refused | bypassed | unkeyed => exact .inl rfl
  | hit | answered => cases hreply
  | failed _ _ _ _ _ hsame =>
    rcases hsame key with hkept | ⟨-, hdeleted⟩
    · exact .inl hkept
    · exact .inr hdeleted

/-- A key that holds no response gets the one that the provider returns. -/
theorem CallOutcome.damaged (huses : UsesKey digest models call key)
    (hnone : (storedFor call.kind world.storage key : Option (γ ⊕ ε)) = none) :
    next.asked = world.asked ++ [call] ∧ wireOf reply = wireOf (models.returns world call) ∧
      ∀ wire, wireOf reply = .ok wire → storedFor call.kind next.storage key = some wire := by
  obtain ⟨hvalid, hbypass, hkey⟩ := huses
  rw [returns_of_valid hvalid]
  cases h with
  | refused hvalid' => cases hvalid.symm.trans hvalid'
  | bypassed _ hbypass' => cases hbypass.symm.trans hbypass'
  | unkeyed _ _ hkey' => cases hkey.symm.trans hkey'
  | hit _ _ hkey' hstored =>
    obtain rfl := Except.ok.inj (hkey.symm.trans hkey')
    cases hnone.symm.trans hstored
  | failed _ _ _ _ hreturned =>
    rw [hreturned]
    exact ⟨rfl, rfl, fun _ h => nomatch h⟩
  | answered _ _ hkey' _ hreturned hholds =>
    obtain rfl := Except.ok.inj (hkey.symm.trans hkey')
    rw [hreturned]
    refine ⟨rfl, rfl, fun wire hwire => ?_⟩
    rw [hholds]
    exact congrArg some (Except.ok.inj hwire)

/-- A call whose key holds a response does not ask the provider. -/
theorem CallOutcome.once (huses : UsesKey digest models call key)
    (hheld : (storedFor call.kind world.storage key : Option (γ ⊕ ε)) ≠ none) :
    next.asked = world.asked := by
  obtain ⟨hvalid, hbypass, hkey⟩ := huses
  cases h with
  | refused | unkeyed | hit => rfl
  | bypassed _ hbypass' => cases hbypass.symm.trans hbypass'
  | failed _ _ hkey' hstored | answered _ _ hkey' hstored =>
    obtain rfl := Except.ok.inj (hkey.symm.trans hkey')
    exact absurd hstored hheld

end

/-- A call that bypasses the cache is one to the provider. -/
theorem step_bypassed (hbypass : call.bypasses = true) (storage : Storage β) (world : World β) :
    (cachedModels digest models storage).step world call =
      (models.returns world call, ⟨world.storage,
        if models.validateRequest call = .ok () then world.asked ++ [call] else world.asked⟩) := by
  have hout := step_outcome digest models storage world call
  rcases hstep : (cachedModels digest models storage).step world call with ⟨reply, next⟩
  rw [hstep] at hout
  dsimp only at hout
  cases hout with
  | refused hvalid =>
    unfold Models.returns
    rw [hvalid]
    rfl
  | bypassed hvalid =>
    rw [returns_of_valid hvalid, if_pos hvalid]
  | unkeyed _ hbypass' | hit _ hbypass' | failed _ hbypass' | answered _ hbypass' =>
    cases hbypass'.symm.trans hbypass

/-- **The cache is transparent** over every sequence of calls: each call is told what the provider
returns, errors are not stored, what is damaged is replaced, what was answered is not asked again,
and calls that bypass the cache do not touch it. -/
theorem cached_transparent (digest : Value → Except LlmError String) (models : Models γ ε)
    (storage : Storage β) (calls earlier : List Call) (call : Call) (later : List Call)
    (hcalls : calls = earlier ++ call :: later) (hfaithful : FaithfulKeys digest models calls)
    (hanswers : AnswersParameters models) (hsound : Sound digest models calls storage) :
    Transparent digest models storage earlier call
      ((cachedModels digest models storage).run earlier)
      ((cachedModels digest models storage).step
        ((cachedModels digest models storage).run earlier) call).1
      ((cachedModels digest models storage).run (earlier ++ [call])) := by
  have hearlier : ∀ c ∈ earlier, c ∈ calls := fun c hc => by simp [hcalls, hc]
  have hcall : call ∈ calls := by simp [hcalls]
  have hinv := Invariant.run hfaithful hanswers hsound earlier hearlier
  have hout : CallOutcome digest models call _ _ _ := step_outcome digest models storage
    ((cachedModels digest models storage).run earlier) call
  rw [Machine.run_append]
  refine ⟨hout.value hfaithful hcall hinv.sound, fun error herror => hout.error herror,
    fun key huses => hout.damaged huses, fun key other huses huses' hanswered => ?_,
    fun hbypass => ?_⟩
  · have hmem : other ∈ calls := by
      obtain ⟨before, after, -, heq, -⟩ := hanswered
      exact hearlier other (by simp [heq])
    have hkept := hinv.kept other key huses' hanswered
    rw [(hfaithful.same_answer hanswers hmem hcall huses' huses).1] at hkept
    exact hout.once huses hkept
  · simp only [Machine.runFrom, step_bypassed hbypass]
    exact ⟨trivial, trivial, fun _ => rfl⟩

/-! ### A sequence of calls -/

/-- Text that is a value, or is not JSON. -/
instance : Text (Option Value) where
  toVec := some
  fromSlice text := text
  fromSlice_toVec _ := rfl

/-- Responses that are strings. -/
instance : Serde String where
  toValue := .string
  fromValue
    | .string wire => some wire
    | _ => none
  fromValue_toValue _ := rfl

/-- Embeddings have an input, and completions none. -/
def sampleDigest (parameters : Value) : Except LlmError String :=
  .ok (if (parameters.get "input").isSome then "embedding" else "completion")

/-- Providers of which the first call times out. -/
def sampleModels : Models String String where
  completion := ⟨CompletionRequest.validate, fun _ => .ok ⟨"yes", ⟨.notUsed⟩⟩, fun _ h => h⟩
  embedding := ⟨EmbeddingRequest.validate, fun _ => .ok ⟨"[1]", ⟨.notUsed⟩⟩, fun _ h => h⟩
  outage asked := if asked = 0 then some (.timeout "model" "completion" 1) else none

def sampleCompletion : Call := .complete (.new [⟨.user, .text "question", []⟩])

def sampleEmbedding : Call := .embed (.new ["question"])

/-- The entry of the completion is damaged. -/
def sampleStorage : Storage (Option Value) := Finmap.singleton "completion_v4" none

theorem sample_faithful :
    FaithfulKeys sampleDigest sampleModels
      [sampleCompletion, sampleEmbedding, sampleCompletion, sampleCompletion] := by
  refine ⟨fun call _ _ => ⟨_, rfl⟩, fun call hcall other hother _ _ hdigest => ?_⟩
  have hne : sampleDigest sampleCompletion.parameters ≠ sampleDigest sampleEmbedding.parameters := by
    decide +kernel
  simp only [List.mem_cons, List.not_mem_nil, or_false] at hcall hother
  rcases hcall with rfl | rfl | rfl | rfl <;> rcases hother with rfl | rfl | rfl | rfl <;>
    first
    | exact ⟨rfl, rfl⟩
    | exact absurd hdigest hne
    | exact absurd hdigest.symm hne

theorem sample_answers : AnswersParameters sampleModels := by
  intro call other _ _ hkind _
  cases call with
  | complete => cases other with
    | complete => rfl
    | embed => cases hkind
  | embed => cases other with
    | complete => cases hkind
    | embed => rfl

theorem sample_sound (calls : List Call) :
    Sound sampleDigest sampleModels calls sampleStorage := by
  intro call _ key wire _ hstored
  have hheld : held sampleStorage key = none := by
    unfold held sampleStorage
    by_cases hkey : key = "completion_v4"
    · subst hkey
      rw [Finmap.lookup_singleton_eq]
      rfl
    · rw [Finmap.lookup_eq_none.mpr (by simpa using hkey)]
      rfl
  have hnone : (storedFor call.kind sampleStorage key : Option (String ⊕ String)) = none := by
    cases call.kind with
    | completion => simp [storedFor, storedResponse, hheld]
    | embedding => simp [storedFor, storedResponse, hheld]
  rw [hnone] at hstored
  cases hstored

/-- The third call of the sample is answered, and the fourth is a hit. -/
theorem cached_transparent_sample :
    Transparent sampleDigest sampleModels sampleStorage
      [sampleCompletion, sampleEmbedding, sampleCompletion] sampleCompletion
      ((cachedModels sampleDigest sampleModels sampleStorage).run
        [sampleCompletion, sampleEmbedding, sampleCompletion])
      ((cachedModels sampleDigest sampleModels sampleStorage).step
        ((cachedModels sampleDigest sampleModels sampleStorage).run
          [sampleCompletion, sampleEmbedding, sampleCompletion]) sampleCompletion).1
      ((cachedModels sampleDigest sampleModels sampleStorage).run
        ([sampleCompletion, sampleEmbedding, sampleCompletion] ++ [sampleCompletion])) :=
  cached_transparent sampleDigest sampleModels sampleStorage _ _ _ [] rfl sample_faithful
    sample_answers (sample_sound _)

end GraphLoom.Llm
