/-
Module: Goggles.Tokens.Lifecycle
Purpose: The tokens of a deployment over every history of issuing, authenticating, revoking,
  expiring and changes of the keys: what authenticates, what keeps authenticating, and what never
  does.
Trusted boundary: forensics/views.py, `revoke_access_token`, `bearer_value`, whose header is Latin-1;
  forensics/admin.py, the token forms; `mark_used`; `configure` restarts the service with other
  settings.  HMAC is taken as injective
Main exports: Deployment, Action, Deployment.step, IssuedIn, Provenance, TokenLifecycle,
  tokenLifecycle, bearerValue
-/
import Goggles.Library.Runs
import Goggles.Tokens.TokenCrypto

namespace Goggles

/-! ### Deployments -/

/-- Both token tables, the users, and what a request reads besides. -/
structure Deployment where
  tokens : (model : TokenModel) → TokenTable model.Owner
  activeUsers : List Nat
  settings : TokenSettings
  now : Int

/-- Before any token is issued. -/
def Deployment.new (settings : TokenSettings) (now : Int) : Deployment :=
  ⟨fun _ => Keyed.empty, [], settings, now⟩

inductive Action where
  | issue (model : TokenModel) (name : Str) (owner : model.Owner) (expiresAt : Option Int)
      (minted : Minted)
  | authenticate (model : TokenModel) (rawToken : Option Str)
  | markUsed (model : TokenModel) (tokenPrefix : Str)
  | revoke (model : TokenModel) (tokenPrefix : Str)
  | edit (model : TokenModel) (tokenPrefix name : Str) (isActive : Bool) (expiresAt : Option Int)
  | setUserActive (user : Nat) (isActive : Bool)
  | configure (settings : TokenSettings)
  | wait (now : Int)

/-- A change of one row, if it is there. -/
def TokenTable.modify {ω : Type} (table : TokenTable ω) (tokenPrefix : Str)
    (change : TokenRow ω → TokenRow ω) : TokenTable ω :=
  match table.find tokenPrefix with
  | none => table
  | some token => table.upsert tokenPrefix fun _ => change token

theorem TokenTable.find_modify {ω : Type} (table : TokenTable ω) (tokenPrefix name : Str)
    (change : TokenRow ω → TokenRow ω) : (table.modify tokenPrefix change).find name =
      if name = tokenPrefix then (table.find name).map change else table.find name := by
  unfold modify
  split
  · next absent =>
      split
      · next same => rw [same, absent]; rfl
      · rfl
  · next token found =>
      rw [Keyed.find_upsert]
      split
      · next same => rw [same, found]; rfl
      · rfl

namespace Deployment

/-- The deployment with another table of a model. -/
def withTable (state : Deployment) (model : TokenModel) (table : TokenTable model.Owner) :
    Deployment :=
  { state with tokens := Function.update state.tokens model table }

section Step

variable (crypto : Crypto)

/-- The answer to a raw token, and the table after it. -/
def answer (state : Deployment) (model : TokenModel) (rawToken : Option Str) :
    Option (Option (Str × TokenRow model.Owner) × TokenTable model.Owner) :=
  model.authenticate crypto state.settings state.activeUsers state.now (state.tokens model) rawToken

/-- One action.  One that raises changes nothing. -/
def step (state : Deployment) : Action → Deployment
  | .issue model name owner expiresAt minted =>
      match model.issue crypto state.settings (state.tokens model) name owner expiresAt minted with
      | none => state
      | some (_, table) => state.withTable model table
  | .authenticate model rawToken =>
      match state.answer crypto model rawToken with
      | none => state
      | some (_, table) => state.withTable model table
  | .markUsed model tokenPrefix =>
      state.withTable model ((state.tokens model).modify tokenPrefix fun token =>
        { token with lastUsedAt := some state.now })
  | .revoke model tokenPrefix =>
      state.withTable model ((state.tokens model).modify tokenPrefix fun token =>
        { token with isActive := false })
  | .edit model tokenPrefix name isActive expiresAt =>
      state.withTable model ((state.tokens model).modify tokenPrefix fun token =>
        { token with name := name, isActive := isActive, expiresAt := expiresAt })
  | .setUserActive user isActive =>
      let others := state.activeUsers.filter (· ≠ user)
      { state with activeUsers := if isActive then user :: others else others }
  | .configure settings => { state with settings := settings }
  | .wait now => { state with now := now }

/-- A raw token is answered with the row under a prefix. -/
def Accepts (state : Deployment) (model : TokenModel) (rawToken lookupPrefix : Str) : Prop :=
  ∃ token after, state.answer crypto model (some rawToken) = some (some (lookupPrefix, token), after)

end Step

variable {crypto : Crypto} {state : Deployment}

/-- A raw token authenticates exactly when it names a live row of an active owner and has its
secret. -/
theorem accepts_iff {model : TokenModel} {rawToken lookupPrefix : Str} :
    state.Accepts crypto model rawToken lookupPrefix ↔
      ∃ secret token, Authenticated crypto state.settings state.now (state.tokens model) rawToken
          model.TOKEN_PREFIX lookupPrefix secret token ∧
        model.ownerActive state.activeUsers token.owner = true := by
  constructor
  · rintro ⟨token, after, answered⟩
    obtain ⟨⟨found, table⟩, done, same⟩ := Option.map_eq_some_iff.mp answered
    obtain ⟨kept, rfl⟩ := Prod.mk.inj same
    obtain ⟨rfl, owned⟩ := Option.filter_eq_some_iff.mp kept
    rcases authenticate_cases done with ⟨absent, -⟩ | ⟨raw, name, secret, row, rawSame, held⟩
    · cases absent
    · cases rawSame
      obtain ⟨after, again, -⟩ := held.authenticate model.underscore_notMem_prefix
      rw [again] at done
      cases done
      exact ⟨secret, row, held, owned⟩
  · rintro ⟨secret, token, held, owned⟩
    obtain ⟨after, done, -⟩ := held.authenticate model.underscore_notMem_prefix
    refine ⟨rekeyed crypto state.settings token secret, after, ?_⟩
    rw [answer, TokenModel.authenticate, done, Option.map_some]
    simp only [Option.filter_some, Option.some.injEq, Prod.mk.injEq, and_true]
    exact if_pos owned

@[simp] theorem withTable_self {model : TokenModel} (table : TokenTable model.Owner) :
    (state.withTable model table).tokens model = table := Function.update_self ..

theorem withTable_of_ne {model other : TokenModel} (different : other ≠ model)
    (table : TokenTable model.Owner) :
    (state.withTable model table).tokens other = state.tokens other :=
  Function.update_of_ne different ..

/-! ### What an action does to the rows -/

/-- How a row may come out of an action. -/
inductive RowAfter (crypto : Crypto) (state : Deployment) (action : Action) (model : TokenModel)
    (lookupPrefix : Str) (after : TokenRow model.Owner) : Prop where
  | kept (token : TokenRow model.Owner)
      (found : (state.tokens model).find lookupPrefix = some token)
      (hash : after.tokenHash = token.tokenHash)
  | rekeyed (rawToken secret : Str) (token : TokenRow model.Owner)
      (held : Authenticated crypto state.settings state.now (state.tokens model) rawToken
        model.TOKEN_PREFIX lookupPrefix secret token)
      (hash : after.tokenHash = crypto.hmac state.settings.tokenHashKey.bytes (encodeUtf8 secret))
  | issued (name : Str) (owner : model.Owner) (expiresAt : Option Int) (minted : Minted)
      (here : action = .issue model name owner expiresAt minted)
      (same : minted.lookupPrefix = lookupPrefix)
      (absent : (state.tokens model).find lookupPrefix = none)
      (hash : after.tokenHash =
        crypto.hmac state.settings.tokenHashKey.bytes (encodeUtf8 minted.secret))

/-- What an answer does to the table. -/
theorem answer_table {model : TokenModel} {rawToken : Option Str}
    {found : Option (Str × TokenRow model.Owner)} {table : TokenTable model.Owner}
    (answered : state.answer crypto model rawToken = some (found, table)) :
    table = state.tokens model ∨
      ∃ raw lookupPrefix secret token,
        Authenticated crypto state.settings state.now (state.tokens model) raw model.TOKEN_PREFIX
          lookupPrefix secret token ∧
        ∀ name, table.find name =
          if name = lookupPrefix then some (Goggles.rekeyed crypto state.settings token secret)
          else (state.tokens model).find name := by
  obtain ⟨⟨entry, after⟩, done, same⟩ := Option.map_eq_some_iff.mp answered
  obtain ⟨-, rfl⟩ := Prod.mk.inj same
  rcases authenticate_cases done with ⟨-, unchanged⟩ | ⟨raw, lookupPrefix, secret, token, rfl, held⟩
  · exact .inl unchanged
  · obtain ⟨table, again, finds⟩ := held.authenticate model.underscore_notMem_prefix
    rw [again] at done
    cases done
    exact .inr ⟨raw, lookupPrefix, secret, token, held, finds⟩

/-- What issuing does to the table. -/
theorem issue_table {model : TokenModel} {name : Str} {owner : model.Owner}
    {expiresAt : Option Int} {minted : Minted} :
    ((state.tokens model).find minted.lookupPrefix = none ∧
      ∃ token : TokenRow model.Owner,
        token.tokenHash =
          crypto.hmac state.settings.tokenHashKey.bytes (encodeUtf8 minted.secret) ∧
        state.step crypto (.issue model name owner expiresAt minted) =
          state.withTable model ((state.tokens model).upsert minted.lookupPrefix fun _ => token)) ∨
      ((state.tokens model).find minted.lookupPrefix).isSome ∧
        state.step crypto (.issue model name owner expiresAt minted) = state := by
  have hashed : hashSecret crypto state.settings minted.secret none =
      some (crypto.hmac state.settings.tokenHashKey.bytes (encodeUtf8 minted.secret)) := by
    rw [hashSecret, minted.encodeStrict_secret]
    rfl
  cases present : (state.tokens model).find minted.lookupPrefix with
  | none =>
      left
      refine ⟨rfl, ⟨name, _, true, expiresAt, none, owner⟩, rfl, ?_⟩
      simp [step, TokenModel.issue, hashed, present]
  | some token =>
      right
      exact ⟨rfl, by simp [step, TokenModel.issue, hashed, present]⟩

section Rows

variable {action : Action} {changed model : TokenModel} {table : TokenTable changed.Owner}
  {lookupPrefix : Str}

theorem rowAfter_withTable {after : TokenRow model.Owner}
    (inside : ∀ name row, table.find name = some row →
      RowAfter crypto state action changed name row)
    (found : ((state.withTable changed table).tokens model).find lookupPrefix = some after) :
    RowAfter crypto state action model lookupPrefix after := by
  by_cases same : model = changed
  · subst same
    rw [withTable_self] at found
    exact inside lookupPrefix after found
  · rw [withTable_of_ne same] at found
    exact .kept after found rfl

theorem keeps_withTable {token : TokenRow model.Owner}
    (inside : ∀ name row, (state.tokens changed).find name = some row →
      ∃ after, table.find name = some after)
    (found : (state.tokens model).find lookupPrefix = some token) :
    ∃ after, ((state.withTable changed table).tokens model).find lookupPrefix = some after := by
  by_cases same : model = changed
  · subst same
    rw [withTable_self]
    exact inside lookupPrefix token found
  · rw [withTable_of_ne same]
    exact ⟨token, found⟩

theorem rowAfter_modify {change : TokenRow changed.Owner → TokenRow changed.Owner}
    (hash : ∀ token, (change token).tokenHash = token.tokenHash) (tokenPrefix name : Str)
    (row : TokenRow changed.Owner)
    (found : ((state.tokens changed).modify tokenPrefix change).find name = some row) :
    RowAfter crypto state action changed name row := by
  rw [TokenTable.find_modify] at found
  split at found
  · obtain ⟨token, here, rfl⟩ := Option.map_eq_some_iff.mp found
    next same => exact .kept token (same ▸ here) (hash token)
  · exact .kept row found rfl

theorem keeps_modify {change : TokenRow changed.Owner → TokenRow changed.Owner}
    (tokenPrefix name : Str) (row : TokenRow changed.Owner)
    (found : (state.tokens changed).find name = some row) :
    ∃ after, ((state.tokens changed).modify tokenPrefix change).find name = some after := by
  rw [TokenTable.find_modify]
  split
  · exact ⟨change row, by rw [found]; rfl⟩
  · exact ⟨row, found⟩

theorem step_row {after : TokenRow model.Owner}
    (found : ((state.step crypto action).tokens model).find lookupPrefix = some after) :
    RowAfter crypto state action model lookupPrefix after := by
  cases action with
  | issue issuing name owner expiresAt minted =>
      rcases @issue_table crypto state issuing name owner expiresAt minted with
        ⟨absent, token, hash, stepped⟩ | ⟨-, stepped⟩
      · rw [stepped] at found
        apply rowAfter_withTable _ found
        intro other row here
        rw [Keyed.find_upsert] at here
        split at here
        · next same =>
            cases here
            exact .issued name owner expiresAt minted rfl same.symm (same ▸ absent) hash
        · exact .kept row here rfl
      · rw [stepped] at found
        exact .kept after found rfl
  | authenticate asked rawToken =>
      rw [step] at found
      split at found
      · exact .kept after found rfl
      · next entry table answered =>
          apply rowAfter_withTable _ found
          intro name row here
          rcases answer_table answered with rfl | ⟨raw, known, secret, token, held, finds⟩
          · exact .kept row here rfl
          · rw [finds] at here
            split at here
            · next same =>
                cases here
                exact same ▸ .rekeyed raw secret token (same ▸ held) rfl
            · exact .kept row here rfl
  | markUsed asked tokenPrefix =>
      apply rowAfter_withTable _ found
      exact rowAfter_modify (by intro token; rfl) tokenPrefix
  | revoke asked tokenPrefix =>
      apply rowAfter_withTable _ found
      exact rowAfter_modify (by intro token; rfl) tokenPrefix
  | edit asked tokenPrefix name isActive expiresAt =>
      apply rowAfter_withTable _ found
      exact rowAfter_modify (by intro token; rfl) tokenPrefix
  | setUserActive user isActive => exact .kept after found rfl
  | configure settings => exact .kept after found rfl
  | wait now => exact .kept after found rfl

theorem step_keeps {token : TokenRow model.Owner}
    (found : (state.tokens model).find lookupPrefix = some token) :
    ∃ after, ((state.step crypto action).tokens model).find lookupPrefix = some after := by
  cases action with
  | issue issuing name owner expiresAt minted =>
      rcases @issue_table crypto state issuing name owner expiresAt minted with
        ⟨-, issued, -, stepped⟩ | ⟨-, stepped⟩
      · rw [stepped]
        apply keeps_withTable _ found
        intro other row here
        rw [Keyed.find_upsert]
        split
        · exact ⟨issued, rfl⟩
        · exact ⟨row, here⟩
      · rw [stepped]
        exact ⟨token, found⟩
  | authenticate asked rawToken =>
      rw [step]
      split
      · exact ⟨token, found⟩
      · next entry table answered =>
          apply keeps_withTable _ found
          intro name row here
          rcases answer_table answered with rfl | ⟨raw, known, secret, held, -, finds⟩
          · exact ⟨row, here⟩
          · rw [finds]
            split
            · exact ⟨_, rfl⟩
            · exact ⟨row, here⟩
  | markUsed asked tokenPrefix => exact keeps_withTable (keeps_modify _) found
  | revoke asked tokenPrefix => exact keeps_withTable (keeps_modify _) found
  | edit asked tokenPrefix name isActive expiresAt =>
      exact keeps_withTable (keeps_modify _) found
  | setUserActive user isActive => exact ⟨token, found⟩
  | configure settings => exact ⟨token, found⟩
  | wait now => exact ⟨token, found⟩

end Rows

end Deployment

/-! ### Where the hashes come from -/

/-- HMAC tells keys and messages apart. -/
def HmacInjective (crypto : Crypto) : Prop :=
  ∀ key message otherKey other, crypto.hmac key message = crypto.hmac otherKey other →
    key = otherKey ∧ message = other

/-- A token was issued in a history, with these random texts. -/
def IssuedIn (crypto : Crypto) (start : Deployment) (history : List Action) (model : TokenModel)
    (minted : Minted) : Prop :=
  ∃ earlier name owner expiresAt later,
    history = earlier ++ .issue model name owner expiresAt minted :: later ∧
      ((run (Deployment.step crypto) start earlier).tokens model).find minted.lookupPrefix = none

/-- Every row was issued in the history, and has the hash of the issued secret under some key. -/
def Provenance (crypto : Crypto) (start : Deployment) (history : List Action) : Prop :=
  ∀ model lookupPrefix token,
    ((run (Deployment.step crypto) start history).tokens model).find lookupPrefix = some token →
      ∃ minted key, IssuedIn crypto start history model minted ∧
        minted.lookupPrefix = lookupPrefix ∧
        token.tokenHash = crypto.hmac key (encodeUtf8 minted.secret)

section History

variable {crypto : Crypto} {start : Deployment}

theorem IssuedIn.append {history : List Action} {model : TokenModel} {minted : Minted}
    (issued : IssuedIn crypto start history model minted) (more : List Action) :
    IssuedIn crypto start (history ++ more) model minted := by
  obtain ⟨earlier, name, owner, expiresAt, later, rfl, absent⟩ := issued
  exact ⟨earlier, name, owner, expiresAt, later ++ more, by simp, absent⟩

/-- A secret that has the hash of another under any keys is the other. -/
theorem Matches.message_eq (injective : HmacInjective crypto) {key : HashKey} {secret : Str}
    {otherKey message : List UInt8} (matched : Matches crypto key secret (crypto.hmac otherKey message)) :
    encodeUtf8 secret = message := by
  obtain ⟨bytes, encoded, hash⟩ := matched
  rw [← encodeStrict_eq encoded]
  exact (injective _ _ _ _ hash).2

theorem Authenticated.message_eq (injective : HmacInjective crypto) {ω : Type} {settings : TokenSettings}
    {now : Int} {table : TokenTable ω} {rawToken typePrefix lookupPrefix secret : Str}
    {token : TokenRow ω} {key message : List UInt8}
    (held : Authenticated crypto settings now table rawToken typePrefix lookupPrefix secret token)
    (hash : token.tokenHash = crypto.hmac key message) : encodeUtf8 secret = message := by
  rcases held.matched with matched | matched
  · exact (hash ▸ matched).message_eq injective
  · exact (hash ▸ matched).message_eq injective

/-- One more action keeps the provenance of the rows. -/
theorem Provenance.step (injective : HmacInjective crypto) {history : List Action}
    (known : Provenance crypto start history) (action : Action) :
    Provenance crypto start (history ++ [action]) := by
  intro model lookupPrefix after found
  rw [run_append, run_cons, run_nil] at found
  rcases Deployment.step_row found with
    ⟨token, here, hash⟩ | ⟨raw, secret, token, held, hash⟩ |
      ⟨name, owner, expiresAt, minted, rfl, rfl, absent, hash⟩
  · obtain ⟨minted, key, issued, same, known⟩ := known model lookupPrefix token here
    exact ⟨minted, key, issued.append _, same, hash.trans known⟩
  · obtain ⟨minted, key, issued, same, known⟩ := known model lookupPrefix token held.found
    rw [held.message_eq injective known] at hash
    exact ⟨minted, _, issued.append _, same, hash⟩
  · exact ⟨minted, _, ⟨history, name, owner, expiresAt, [], rfl, absent⟩, rfl, hash⟩

theorem provenance (injective : HmacInjective crypto) (settings : TokenSettings) (now : Int)
    (history : List Action) : Provenance crypto (Deployment.new settings now) history := by
  induction history using List.reverseRecOn with
  | nil =>
      intro model lookupPrefix token found
      rw [run_nil, Deployment.new, Keyed.find_empty] at found
      cases found
  | append_singleton history action inductionHypothesis =>
      exact inductionHypothesis.step injective action

theorem run_keeps {state : Deployment} (history : List Action) {model : TokenModel}
    {lookupPrefix : Str} {token : TokenRow model.Owner}
    (found : (state.tokens model).find lookupPrefix = some token) :
    ∃ after, ((run (Deployment.step crypto) state history).tokens model).find lookupPrefix =
      some after := by
  have kept : ∀ (state : Deployment) (action : Action),
      (∃ after, (state.tokens model).find lookupPrefix = some after) →
        ∃ after, ((state.step crypto action).tokens model).find lookupPrefix = some after :=
    fun state action ⟨_, here⟩ => Deployment.step_keeps here
  exact run_invariant kept ⟨token, found⟩ history

/-- After it was issued, a prefix is taken. -/
theorem taken_after_issue {earlier : List Action} {model : TokenModel} {name : Str}
    {owner : model.Owner} {expiresAt : Option Int} {minted : Minted} (more : List Action)
    (absent : ((run (Deployment.step crypto) start earlier).tokens model).find
      minted.lookupPrefix = none) :
    ((run (Deployment.step crypto) start
      (earlier ++ .issue model name owner expiresAt minted :: more)).tokens model).find
        minted.lookupPrefix ≠ none := by
  rw [run_append, run_cons]
  rcases @Deployment.issue_table crypto (run (Deployment.step crypto) start earlier) model name owner
    expiresAt minted with ⟨-, token, -, stepped⟩ | ⟨present, -⟩
  · rw [stepped]
    have here := Keyed.find_upsert_self
      ((run (Deployment.step crypto) start earlier).tokens model) minted.lookupPrefix
      (fun _ => token)
    rw [← Deployment.withTable_self (Keyed.upsert _ _ _)] at here
    obtain ⟨after, found⟩ := run_keeps more here
    rw [found]
    exact Option.some_ne_none after
  · rw [absent] at present
    cases present

/-- A prefix is issued once. -/
theorem IssuedIn.unique {history : List Action} {model : TokenModel} {minted other : Minted}
    (issued : IssuedIn crypto start history model minted)
    (again : IssuedIn crypto start history model other)
    (same : other.lookupPrefix = minted.lookupPrefix) : other = minted := by
  obtain ⟨earlier, name, owner, expiresAt, later, whole, absent⟩ := issued
  obtain ⟨before, otherName, otherOwner, otherExpiry, rest, rfl, free⟩ := again
  rcases List.append_eq_append_iff.mp whole with ⟨between, rfl, tail⟩ | ⟨between, rfl, tail⟩
  · cases between with
    | nil =>
        cases tail
        rfl
    | cons action more =>
        obtain ⟨rfl, -⟩ := List.cons.inj tail
        exact absurd (same ▸ absent) (taken_after_issue more free)
  · cases between with
    | nil =>
        cases tail
        rfl
    | cons action more =>
        obtain ⟨rfl, -⟩ := List.cons.inj tail
        exact absurd (same ▸ free) (taken_after_issue more absent)

end History

/-! ### The lifecycle -/

/-- A raw token of the model's type names a live row of an active owner, and its secret has the
stored hash under the current hash key or the secret key. -/
def ValidCredential (crypto : Crypto) (state : Deployment) (model : TokenModel)
    (rawToken lookupPrefix : Str) : Prop :=
  ∃ secret token,
    rawToken = model.TOKEN_PREFIX ++ underscore :: (lookupPrefix ++ underscore :: secret) ∧
    (state.tokens model).find lookupPrefix = some token ∧ token.isActive = true ∧
    token.isExpired state.now = false ∧ model.ownerActive state.activeUsers token.owner = true ∧
    (Matches crypto state.settings.tokenHashKey secret token.tokenHash ∨
      Matches crypto state.settings.secretKey secret token.tokenHash)

/-- An action after which the dedicated hash key is the same, though the secret key may be rotated. -/
def KeepsHashKey (dedicated : HashKey) (action : Action) : Prop :=
  ∀ settings, action = .configure settings → settings.dedicated = some dedicated

/-- What holds of the tokens over every history. -/
structure TokenLifecycle (crypto : Crypto) (start : Deployment) : Prop where
  accepts_iff : ∀ history model rawToken lookupPrefix,
    (run (Deployment.step crypto) start history).Accepts crypto model rawToken lookupPrefix ↔
      ValidCredential crypto (run (Deployment.step crypto) start history) model rawToken lookupPrefix
  survives : ∀ history later model rawToken lookupPrefix dedicated,
    (run (Deployment.step crypto) start history).settings.dedicated = some dedicated →
    (run (Deployment.step crypto) start history).Accepts crypto model rawToken lookupPrefix →
    (∀ action ∈ later, KeepsHashKey dedicated action) →
    ∀ last, last = run (Deployment.step crypto) start
        (history ++ .authenticate model (some rawToken) :: later) →
      ∃ token, (last.tokens model).find lookupPrefix = some token ∧
        (token.isActive = true → token.isExpired last.now = false →
          model.ownerActive last.activeUsers token.owner = true →
          last.Accepts crypto model rawToken lookupPrefix)
  issued : ∀ history model rawToken lookupPrefix,
    (run (Deployment.step crypto) start history).Accepts crypto model rawToken lookupPrefix →
    ∃ minted, IssuedIn crypto start history model minted ∧ minted.lookupPrefix = lookupPrefix ∧
      rawToken = generateRawToken model.TOKEN_PREFIX minted ∧
      ∀ other, IssuedIn crypto start history model other → other.lookupPrefix = lookupPrefix →
        other = minted
  apart : ∀ history model other, model ≠ other → ∀ rest lookupPrefix,
    ¬ (run (Deployment.step crypto) start history).Accepts crypto model
      (other.TOKEN_PREFIX ++ underscore :: rest) lookupPrefix

section Lifecycle

variable {crypto : Crypto} {state : Deployment} {model : TokenModel} {rawToken lookupPrefix : Str}

/-- The key is the dedicated one, and a row has the hash of a secret under it. -/
def HashedUnder (crypto : Crypto) (model : TokenModel) (lookupPrefix : Str) (dedicated : HashKey)
    (message : List UInt8) (state : Deployment) : Prop :=
  state.settings.dedicated = some dedicated ∧
    ∃ token, (state.tokens model).find lookupPrefix = some token ∧
      token.tokenHash = crypto.hmac dedicated.bytes message

theorem tokenHashKey_of_dedicated {settings : TokenSettings} {dedicated : HashKey}
    (keyed : settings.dedicated = some dedicated) : settings.tokenHashKey = dedicated := by
  rw [TokenSettings.tokenHashKey, keyed]
  rfl

/-- An authentication leaves the row hashed under the dedicated key. -/
theorem hashedUnder_of_accepts {dedicated : HashKey} (keyed : state.settings.dedicated = some dedicated)
    (accepted : state.Accepts crypto model rawToken lookupPrefix) :
    ∃ secret message, rawToken =
        model.TOKEN_PREFIX ++ underscore :: (lookupPrefix ++ underscore :: secret) ∧
      underscore ∉ lookupPrefix ∧ encodeStrict secret = some message ∧
      HashedUnder crypto model lookupPrefix dedicated message
        (state.step crypto (.authenticate model (some rawToken))) := by
  obtain ⟨secret, token, held, owned⟩ := Deployment.accepts_iff.mp accepted
  obtain ⟨message, encoded⟩ : ∃ message, encodeStrict secret = some message := by
    rcases held.matched with ⟨message, encoded, -⟩ | ⟨message, encoded, -⟩ <;>
      exact ⟨message, encoded⟩
  obtain ⟨after, done, finds⟩ := held.authenticate model.underscore_notMem_prefix
  have stepped : state.step crypto (.authenticate model (some rawToken)) =
      state.withTable model after := by
    rw [Deployment.step, Deployment.answer, TokenModel.authenticate, done]
    rfl
  refine ⟨secret, message, held.raw, held.plain, encoded, ?_⟩
  rw [stepped]
  refine ⟨keyed, rekeyed crypto state.settings token secret, ?_, ?_⟩
  · rw [Deployment.withTable_self, finds, if_pos rfl]
  · rw [← tokenHashKey_of_dedicated keyed, encodeStrict_eq encoded]
    rfl

/-- Only a restart changes the settings. -/
theorem Deployment.step_settings {action : Action} :
    (state.step crypto action).settings = state.settings ∨
      ∃ settings, action = .configure settings ∧
        (state.step crypto action).settings = settings := by
  cases action with
  | configure settings => exact .inr ⟨settings, rfl, rfl⟩
  | issue issuing name owner expiresAt minted =>
      left
      rw [Deployment.step]
      split <;> rfl
  | authenticate asked rawToken =>
      left
      rw [Deployment.step]
      split <;> rfl
  | markUsed | revoke | edit | setUserActive | wait => exact .inl rfl

/-- No action but another hash key takes it away. -/
theorem HashedUnder.step (injective : HmacInjective crypto) {dedicated : HashKey}
    {message : List UInt8} {action : Action}
    (kept : KeepsHashKey dedicated action)
    (hashed : HashedUnder crypto model lookupPrefix dedicated message state) :
    HashedUnder crypto model lookupPrefix dedicated message (state.step crypto action) := by
  obtain ⟨keyed, token, found, hash⟩ := hashed
  constructor
  · rcases @Deployment.step_settings crypto state action with same | ⟨settings, rfl, changed⟩
    · rw [same, keyed]
    · rw [changed, kept settings rfl]
  · obtain ⟨after, later⟩ := @Deployment.step_keeps crypto state action _ _ _ found
    refine ⟨after, later, ?_⟩
    rcases Deployment.step_row later with
      ⟨before, here, same⟩ | ⟨raw, secret, before, held, rekeyed⟩ |
        ⟨name, owner, expiresAt, minted, -, -, absent, -⟩
    · rw [found] at here
      cases here
      rw [same, hash]
    · have here := held.found
      rw [found] at here
      cases here
      rw [rekeyed, held.message_eq injective hash, tokenHashKey_of_dedicated keyed]
    · rw [found] at absent
      cases absent

theorem HashedUnder.run (injective : HmacInjective crypto) {dedicated : HashKey}
    {message : List UInt8} (hashed : HashedUnder crypto model lookupPrefix dedicated message state)
    {later : List Action} (kept : ∀ action ∈ later, KeepsHashKey dedicated action) :
    HashedUnder crypto model lookupPrefix dedicated message
      (Goggles.run (Deployment.step crypto) state later) := by
  apply run_invariant_of _ hashed kept
  intro state action allowed hashed
  exact hashed.step injective allowed

end Lifecycle

/-! ### A function that tells keys and messages apart -/

/-- HMAC on the listed keys and messages, and the key and the message themselves on others. -/
def knownHmac (known : List ((List UInt8 × List UInt8) × Str)) : Crypto where
  hmac key message := (known.lookup (key, message)).getD
    (0x21 :: (key.map UInt8.toNat ++ 0x100 :: message.map UInt8.toNat))

theorem hmacInjective_knownHmac {known : List ((List UInt8 × List UInt8) × Str)}
    (distinct : (known.map Prod.snd).Nodup)
    (hex : ∀ digest ∈ known.map Prod.snd, digest.head? ≠ some 0x21) :
    HmacInjective (knownHmac known) := by
  have listed : ∀ {asked : List UInt8 × List UInt8} {digest : Str},
      known.lookup asked = some digest → (asked, digest) ∈ known := by
    intro asked digest found
    obtain ⟨before, after, rfl, -⟩ := List.lookup_eq_some_iff.mp found
    simp
  have bytes : ∀ key : List UInt8, 0x100 ∉ key.map UInt8.toNat := by
    intro key member
    obtain ⟨byte, -, same⟩ := List.mem_map.mp member
    have bound := byte.toNat_lt
    omega
  have toNat_injective : Function.Injective (List.map UInt8.toNat) :=
    List.map_injective_iff.mpr fun _ _ => UInt8.toNat_inj.mp
  intro key message otherKey other same
  simp only [knownHmac] at same
  cases found : known.lookup (key, message) with
  | some digest =>
      cases otherFound : known.lookup (otherKey, other) with
      | some otherDigest =>
          rw [found, otherFound, Option.getD_some, Option.getD_some] at same
          have entry := List.inj_on_of_nodup_map distinct (listed found) (listed otherFound) same
          exact ⟨congrArg (·.1.1) entry, congrArg (·.1.2) entry⟩
      | none =>
          rw [found, otherFound, Option.getD_some, Option.getD_none] at same
          exact absurd (by rw [same]; rfl) (hex digest (List.mem_map_of_mem (listed found)))
  | none =>
      cases otherFound : known.lookup (otherKey, other) with
      | some otherDigest =>
          rw [found, otherFound, Option.getD_some, Option.getD_none] at same
          exact absurd (by rw [← same]; rfl)
            (hex otherDigest (List.mem_map_of_mem (listed otherFound)))
      | none =>
          rw [found, otherFound, Option.getD_none, Option.getD_none] at same
          have parts := congrArg (splitMax 0x100 1) (List.cons.inj same).2
          rw [splitMax_append (bytes key), splitMax_append (bytes otherKey)] at parts
          obtain ⟨keys, rest⟩ := List.cons.inj parts
          exact ⟨toNat_injective keys, toNat_injective (List.cons.inj rest).1⟩

/-- A secret with an underscore. -/
def underscoredToken : Minted where
  lookupPrefix := lit "0123456789abcdef"
  secret := lit "abc_defghijklmnopqrstuvwxyzABCDEFGHIJKLMNOP"
  hex := by decide
  urlSafe := by decide

def firstKey : HashKey := ⟨lit "first", by decide, by decide⟩

def dedicatedKey : HashKey := ⟨lit "dedicated", by decide, by decide⟩

def rotatedKey : HashKey := ⟨lit "rotated", by decide, by decide⟩

/-- Knows the hashes of that secret. -/
def underscoredCrypto : Crypto :=
  knownHmac
    [((firstKey.bytes, encodeUtf8 underscoredToken.secret),
        lit "d3dc06abdd559894bb3db28064747744" ++ lit "b82ba35bd50cb97719898f773c066eb2"),
      ((dedicatedKey.bytes, encodeUtf8 underscoredToken.secret),
        lit "366ef6e0a7b4dedabfbfec01b933449e" ++ lit "fcfe99c86722dfbac813f28e87d15dc5")]

/-- The token is issued under the secret key, used under a dedicated key, and the secret key is
rotated. -/
def rotatingHistory : List Action :=
  [.issue .uploadToken (lit "device") () none underscoredToken,
    .configure ⟨firstKey, some dedicatedKey⟩,
    .authenticate .uploadToken (some (generateRawToken (lit "goggles") underscoredToken)),
    .configure ⟨rotatedKey, some dedicatedKey⟩]

/-- The lifecycle of tokens, over every history of actions and key changes: what authenticates is
what names a live row and has its hash; after a login under the dedicated key a token survives the
rotation of the secret key; and only what was issued ever authenticates. -/
theorem tokenLifecycle (crypto : Crypto) (injective : HmacInjective crypto) (settings : TokenSettings)
    (now : Int) : TokenLifecycle crypto (Deployment.new settings now) where
  accepts_iff := by
    intro history model rawToken lookupPrefix
    rw [Deployment.accepts_iff]
    constructor
    · rintro ⟨secret, token, held, owned⟩
      exact ⟨secret, token, held.raw, held.found, held.active, held.unexpired, owned, held.matched⟩
    · rintro ⟨secret, token, raw, found, active, unexpired, owned, matched⟩
      obtain ⟨minted, -, -, rfl, -⟩ := provenance injective settings now history model _ _ found
      exact ⟨secret, token,
        ⟨raw, minted.underscore_notMem, found, active, unexpired, matched⟩, owned⟩
  survives := by
    rintro history later model rawToken lookupPrefix dedicated keyed accepted kept _ rfl
    rw [run_append, run_cons]
    obtain ⟨secret, message, raw, plain, encoded, hashed⟩ := hashedUnder_of_accepts keyed accepted
    obtain ⟨lastKeyed, token, found, hash⟩ := hashed.run injective kept
    refine ⟨token, found, fun active unexpired owned => ?_⟩
    apply Deployment.accepts_iff.mpr
    refine ⟨secret, token, ⟨raw, plain, found, active, unexpired, .inl ⟨message, encoded, ?_⟩⟩, owned⟩
    rw [hash, tokenHashKey_of_dedicated lastKeyed]
  issued := by
    intro history model rawToken lookupPrefix accepted
    obtain ⟨secret, token, held, -⟩ := Deployment.accepts_iff.mp accepted
    obtain ⟨minted, key, issued, same, hash⟩ :=
      provenance injective settings now history model lookupPrefix token held.found
    have secretSame : secret = minted.secret :=
      eq_of_encodeUtf8_eq_ascii minted.secret_ascii (held.message_eq injective hash)
    refine ⟨minted, issued, same, ?_, fun other again otherSame =>
      issued.unique again (otherSame.trans same.symm)⟩
    rw [held.raw, ← same, secretSame]
    rfl
  apart := by
    intro history model other different rest lookupPrefix accepted
    obtain ⟨secret, token, held, -⟩ := Deployment.accepts_iff.mp accepted
    have parts := congrArg (splitMax underscore 2) held.raw
    rw [splitMax_append other.underscore_notMem_prefix,
      splitMax_append model.underscore_notMem_prefix] at parts
    exact different (TokenModel.prefix_injective (List.cons.inj parts).1.symm)

theorem tokenLifecycle_rotated :
    TokenLifecycle underscoredCrypto (Deployment.new ⟨firstKey, none⟩ 0) ∧
      ((run (Deployment.step underscoredCrypto) (Deployment.new ⟨firstKey, none⟩ 0)
        rotatingHistory).answer underscoredCrypto .uploadToken
          (some (generateRawToken (lit "goggles") underscoredToken))).map
            (fun answer => answer.1.map Prod.fst) = some (some underscoredToken.lookupPrefix) :=
  ⟨tokenLifecycle underscoredCrypto
    (hmacInjective_knownHmac (by decide +kernel) (by decide +kernel)) ⟨firstKey, none⟩ 0,
    by decide +kernel⟩

/-! ### The credential of a request -/

/-- `bearer_value`: what follows the first space of `Bearer <token>`. -/
def bearerValue (authorization : Option Str) : Option Str :=
  let text := authorization.getD []
  let scheme := text.takeWhile (· ≠ 0x20)
  let value := (text.dropWhile (· ≠ 0x20)).tail
  if scheme.map asciiLower ≠ lit "bearer" ∨ value = [] then none else some (strip value)

section Credentials

variable {crypto : Crypto}

/-- An answer with a row is to a token. -/
theorem exists_rawToken {state : Deployment} {model : TokenModel} {rawToken : Option Str}
    {entry : Str × TokenRow model.Owner} {table : TokenTable model.Owner}
    (answered : state.answer crypto model rawToken = some (some entry, table)) :
    ∃ raw, rawToken = some raw := by
  obtain ⟨⟨found, after⟩, done, same⟩ := Option.map_eq_some_iff.mp answered
  rcases authenticate_cases done with ⟨rfl, -⟩ | ⟨raw, lookupPrefix, secret, token, sent, -⟩
  · cases same
  · exact ⟨raw, sent⟩

end Credentials

end Goggles
