/-
Module: Goggles.Tokens.FailedAuthentication
Purpose: What an authentication that returns no token does to the stored rows: nothing, unless the
  token of an inactive owner is rekeyed before the owner is checked.
Trusted boundary: none beyond the modules it imports
Main exports: KeepsRows, RekeysInactive, keepsRows_iff
-/
import Goggles.Tokens.Lifecycle

namespace Goggles

section Failed

variable (crypto : Crypto) (state : Deployment) (model : TokenModel) (rawToken : Option Str)

/-- If no token is returned, every row of both tables is as it was. -/
def KeepsRows : Prop :=
  ∀ after, state.answer crypto model rawToken = some (none, after) →
    ∀ (other : TokenModel) (lookupPrefix : Str),
      ((state.step crypto (.authenticate model rawToken)).tokens other).find lookupPrefix =
        (state.tokens other).find lookupPrefix

/-- The text names an active, unexpired row of an owner who is not active, and its secret has the
stored hash under the secret key alone. -/
def RekeysInactive : Prop :=
  ∃ raw lookupPrefix secret token, rawToken = some raw ∧
    Authenticated crypto state.settings state.now (state.tokens model) raw model.TOKEN_PREFIX
      lookupPrefix secret token ∧
    model.ownerActive state.activeUsers token.owner = false ∧
    ¬ Matches crypto state.settings.tokenHashKey secret token.tokenHash

variable {crypto state model rawToken}

/-- A row whose hash is that under the current key is not changed by rekeying. -/
theorem rekeyed_eq_self {ω : Type} {settings : TokenSettings} {token : TokenRow ω} {secret : Str}
    (current : Matches crypto settings.tokenHashKey secret token.tokenHash) :
    rekeyed crypto settings token secret = token := by
  obtain ⟨message, encoded, hash⟩ := current
  obtain rfl := encodeStrict_eq encoded
  rw [rekeyed, hash]

/-- What is left of a row that authenticates for an owner who is not active. -/
theorem Authenticated.answer_inactive {raw lookupPrefix secret : Str}
    {token : TokenRow model.Owner}
    (held : Authenticated crypto state.settings state.now (state.tokens model) raw
      model.TOKEN_PREFIX lookupPrefix secret token)
    (inactive : model.ownerActive state.activeUsers token.owner = false) :
    ∃ after, state.answer crypto model (some raw) = some (none, after) ∧
      ∀ name, after.find name =
        if name = lookupPrefix then some (rekeyed crypto state.settings token secret)
        else (state.tokens model).find name := by
  obtain ⟨after, done, finds⟩ := held.authenticate model.underscore_notMem_prefix
  refine ⟨after, ?_, finds⟩
  have owner : model.ownerActive state.activeUsers
      (rekeyed crypto state.settings token secret).owner = false := inactive
  rw [Deployment.answer, TokenModel.authenticate, done, Option.map_some, Option.filter_some,
    if_neg (by rw [owner]; exact Bool.false_ne_true)]

/-- What an authentication without a token does to the table it looks in. -/
theorem failed_table {after : TokenTable model.Owner}
    (answered : state.answer crypto model rawToken = some (none, after)) :
    after = state.tokens model ∨
      ∃ raw lookupPrefix secret token, rawToken = some raw ∧
        Authenticated crypto state.settings state.now (state.tokens model) raw model.TOKEN_PREFIX
          lookupPrefix secret token ∧
        model.ownerActive state.activeUsers token.owner = false := by
  obtain ⟨⟨found, table⟩, done, same⟩ := Option.map_eq_some_iff.mp answered
  obtain ⟨dropped, rfl⟩ := Prod.mk.inj same
  rcases authenticate_cases done with ⟨-, unchanged⟩ | ⟨raw, lookupPrefix, secret, token, rfl, held⟩
  · exact .inl unchanged
  · right
    refine ⟨raw, lookupPrefix, secret, token, rfl, held, ?_⟩
    obtain ⟨rekeyedTable, again, -⟩ := held.authenticate model.underscore_notMem_prefix
    rw [again] at done
    cases done
    rw [Option.filter_eq_none_iff] at dropped
    have owner : model.ownerActive state.activeUsers
        (rekeyed crypto state.settings token secret).owner = false := by
      simpa using dropped
    exact owner

/-- An authentication that fails changes no row, exactly when it does not rekey the token of an
inactive owner. -/
theorem keepsRows_iff (crypto : Crypto) (state : Deployment) (model : TokenModel)
    (rawToken : Option Str) :
    KeepsRows crypto state model rawToken ↔ ¬ RekeysInactive crypto state model rawToken := by
  constructor
  · rintro keeps ⟨raw, lookupPrefix, secret, token, rfl, held, inactive, legacy⟩
    obtain ⟨after, answered, finds⟩ := held.answer_inactive inactive
    have row := keeps after answered model lookupPrefix
    rw [Deployment.step, answered] at row
    dsimp only at row
    rw [Deployment.withTable_self, finds, if_pos rfl, held.found, Option.some.injEq] at row
    apply legacy
    have hash := congrArg TokenRow.tokenHash row
    rcases held.matched with current | ⟨message, encoded, -⟩
    · exact current
    · obtain rfl := encodeStrict_eq encoded
      exact ⟨_, encoded, hash⟩
  · intro condition after answered other name
    rw [Deployment.step, answered]
    dsimp only
    by_cases same : other = model
    · subst same
      rw [Deployment.withTable_self]
      rcases failed_table answered with rfl | ⟨raw, lookupPrefix, secret, token, rfl, held, inactive⟩
      · rfl
      · obtain ⟨table, again, finds⟩ := held.answer_inactive inactive
        rw [answered, Option.some.injEq, Prod.mk.injEq] at again
        obtain ⟨-, rfl⟩ := again
        have current : Matches crypto state.settings.tokenHashKey secret token.tokenHash := by
          by_contra legacy
          exact condition ⟨raw, lookupPrefix, secret, token, rfl, held, inactive, legacy⟩
        rw [finds, rekeyed_eq_self current]
        split
        · next named => rw [named, held.found]
        · rfl
    · rw [Deployment.withTable_of_ne same]

end Failed

/-- A personal token of a user who is not active, issued under the secret key before a dedicated key
was set. -/
def inactiveOwner : Deployment :=
  run (Deployment.step underscoredCrypto) (Deployment.new ⟨firstKey, none⟩ 0)
    [.issue .personalAccessToken (lit "reader") (7 : Nat) none underscoredToken,
      .configure ⟨firstKey, some dedicatedKey⟩]

theorem not_keepsRows : ¬ ∀ (crypto : Crypto) (state : Deployment) (model : TokenModel)
    (rawToken : Option Str), KeepsRows crypto state model rawToken := by
  intro keeps
  have refused : ((inactiveOwner.answer underscoredCrypto .personalAccessToken
      (some (generateRawToken (lit "gpat") underscoredToken))).map fun answer =>
        answer.1.isSome) = some false := by decide +kernel
  have changed : (((inactiveOwner.step underscoredCrypto (.authenticate .personalAccessToken
      (some (generateRawToken (lit "gpat") underscoredToken)))).tokens
        .personalAccessToken).find underscoredToken.lookupPrefix).map TokenRow.tokenHash ≠
      ((inactiveOwner.tokens .personalAccessToken).find underscoredToken.lookupPrefix).map
        TokenRow.tokenHash := by decide +kernel
  cases answered : inactiveOwner.answer underscoredCrypto .personalAccessToken
      (some (generateRawToken (lit "gpat") underscoredToken)) with
  | none =>
      rw [answered] at refused
      cases refused
  | some answer =>
      obtain ⟨found, after⟩ := answer
      rw [answered] at refused
      cases found with
      | some entry => cases refused
      | none =>
          apply changed
          rw [keeps underscoredCrypto inactiveOwner .personalAccessToken _ after answered]

end Goggles
