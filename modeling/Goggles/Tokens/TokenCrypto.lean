/-
Module: Goggles.Tokens.TokenCrypto
Purpose: Bearer tokens: how a credential is minted, stored and checked, for upload tokens and for
  personal access tokens.
Trusted boundary: forensics/token_crypto.py; forensics/models.py, `UploadToken`,
  `PersonalAccessToken`; config/settings.py, `GOGGLES_TOKEN_HASH_KEY`.  HMAC-SHA256 and the
  random texts of `secrets` are parameters, times are numbers on one scale, a user is given by its
  primary key.  `created_at`, which nothing reads, is left out
Main exports: Crypto, TokenSettings, Minted, TokenRow, TokenModel, TokenModel.issue,
  TokenModel.authenticate, authenticate_eq_some_iff
-/
import Goggles.Library.Keyed
import Goggles.Python.Text

namespace Goggles

/-! ### Keys -/

/-- `hmac.new(key, message, hashlib.sha256).hexdigest()`. -/
structure Crypto where
  hmac : List UInt8 → List UInt8 → Str

/-- A key that is set: Django refuses an empty `SECRET_KEY`, and `or` passes over an empty
`GOGGLES_TOKEN_HASH_KEY`. -/
structure HashKey where
  text : Str
  present : text ≠ []
  encodable : text.all (fun char => !isSurrogate char) = true
deriving DecidableEq

/-- `key.encode("utf-8")`. -/
def HashKey.bytes (key : HashKey) : List UInt8 := encodeUtf8 key.text

/-- The settings that are read.  `dedicated` is the environment's `GOGGLES_TOKEN_HASH_KEY`. -/
structure TokenSettings where
  secretKey : HashKey
  dedicated : Option HashKey
deriving DecidableEq

/-- `settings.GOGGLES_TOKEN_HASH_KEY`. -/
def TokenSettings.tokenHashKey (settings : TokenSettings) : HashKey :=
  settings.dedicated.getD settings.secretKey

/-- `hash_secret`; `none` is the `UnicodeEncodeError` of an unpaired surrogate. -/
def hashSecret (crypto : Crypto) (settings : TokenSettings) (secret : Str) (key : Option HashKey) :
    Option Str :=
  (encodeStrict secret).map (crypto.hmac (key.getD settings.tokenHashKey).bytes)

/-- `legacy_hash_keys`. -/
def legacyHashKeys (settings : TokenSettings) : List HashKey :=
  if settings.secretKey.text ≠ settings.tokenHashKey.text then [settings.secretKey] else []

/-! ### Raw tokens -/

/-- The alphabet of `secrets.token_urlsafe`. -/
def isUrlSafe (char : Nat) : Bool :=
  (0x30 ≤ char && char ≤ 0x39) || (0x41 ≤ char && char ≤ 0x5A) || (0x61 ≤ char && char ≤ 0x7A) ||
    char == 0x2D || char == 0x5F

/-- `_`. -/
def underscore : Nat := 0x5F

/-- What `secrets` returns: `token_hex(8)` and `token_urlsafe(32)`. -/
structure Minted where
  lookupPrefix : Str
  secret : Str
  hex : lookupPrefix.length = 16 ∧ lookupPrefix.all isLowerHexDigit = true
  urlSafe : secret.length = 43 ∧ secret.all isUrlSafe = true
deriving DecidableEq

/-- The raw token of `generate_raw_token`. -/
def generateRawToken (typePrefix : Str) (minted : Minted) : Str :=
  typePrefix ++ underscore :: (minted.lookupPrefix ++ underscore :: minted.secret)

theorem Minted.underscore_notMem (minted : Minted) : underscore ∉ minted.lookupPrefix := by
  intro member
  have digit := List.all_eq_true.mp minted.hex.2 _ member
  simp [isLowerHexDigit, underscore] at digit

theorem Minted.secret_ascii (minted : Minted) : ∀ char ∈ minted.secret, char < 0x80 := by
  intro char member
  have safe := List.all_eq_true.mp minted.urlSafe.2 _ member
  simp only [isUrlSafe, Bool.or_eq_true, Bool.and_eq_true, decide_eq_true_eq, beq_iff_eq] at safe
  omega

theorem Minted.encodeStrict_secret (minted : Minted) :
    encodeStrict minted.secret = some (encodeUtf8 minted.secret) := by
  apply if_neg
  rw [List.any_eq_true]
  rintro ⟨char, member, surrogate⟩
  have ascii := minted.secret_ascii char member
  simp only [isSurrogate, Bool.and_eq_true, decide_eq_true_eq] at surrogate
  omega

/-! ### Token rows -/

/-- A row of either table, under its unique `token_prefix`.  `owner` is what else the row names. -/
structure TokenRow (ω : Type) where
  name : Str
  tokenHash : Str
  isActive : Bool
  expiresAt : Option Int
  lastUsedAt : Option Int
  owner : ω
deriving DecidableEq

/-- A table of tokens. -/
abbrev TokenTable (ω : Type) := Keyed Str (TokenRow ω)

/-- `is_expired`. -/
def TokenRow.isExpired {ω : Type} (token : TokenRow ω) (now : Int) : Bool :=
  match token.expiresAt with
  | none => false
  | some expiresAt => expiresAt ≤ now

section Authenticate

variable {ω : Type} (crypto : Crypto) (settings : TokenSettings) (now : Int)

/-- Whether the secret matches a stored hash, and then whether by a legacy key alone. -/
def matchedLegacyKey (tokenHash currentHash secret : Str) : Option Bool :=
  if tokenHash = currentHash then some false
  else if (legacyHashKeys settings).any fun key =>
      hashSecret crypto settings secret (some key) = some tokenHash then some true
  else none

/-- `token_crypto.authenticate`: the row under its prefix, and the table after it.  A missing token
splits as a blank one does, into one part. -/
def authenticate (table : TokenTable ω) (rawToken : Option Str) (typePrefix : Str) :
    Option (Option (Str × TokenRow ω) × TokenTable ω) :=
  match splitMax underscore 2 (rawToken.getD []) with
  | [tokenType, lookupPrefix, secret] =>
      if tokenType ≠ typePrefix then some (none, table)
      else
        match (table.find lookupPrefix).filter TokenRow.isActive with
        | none => some (none, table)
        | some token => do
            let currentHash ← hashSecret crypto settings secret none
            match matchedLegacyKey crypto settings token.tokenHash currentHash secret with
            | none => return (none, table)
            | some legacy =>
                if token.isExpired now then return (none, table)
                else if legacy then
                  let rekeyed := { token with tokenHash := currentHash }
                  return (some (lookupPrefix, rekeyed), table.upsert lookupPrefix fun _ => rekeyed)
                else return (some (lookupPrefix, token), table)
  | _ => some (none, table)

/-! ### What authentication does -/

/-- The secret has the stored hash under a key. -/
def Matches (key : HashKey) (secret tokenHash : Str) : Prop :=
  ∃ message, encodeStrict secret = some message ∧ crypto.hmac key.bytes message = tokenHash

/-- A raw token names a live row of a table, and its secret has the row's hash. -/
structure Authenticated (table : TokenTable ω) (rawToken typePrefix lookupPrefix secret : Str)
    (token : TokenRow ω) : Prop where
  raw : rawToken = typePrefix ++ underscore :: (lookupPrefix ++ underscore :: secret)
  plain : underscore ∉ lookupPrefix
  found : table.find lookupPrefix = some token
  active : token.isActive = true
  unexpired : token.isExpired now = false
  matched : Matches crypto settings.tokenHashKey secret token.tokenHash ∨
    Matches crypto settings.secretKey secret token.tokenHash

/-- The row with the hash of the secret under the current key. -/
def rekeyed (token : TokenRow ω) (secret : Str) : TokenRow ω :=
  { token with
    tokenHash := crypto.hmac settings.tokenHashKey.bytes (encodeUtf8 secret) }

variable {crypto settings now}

theorem encodeStrict_eq {text : Str} {message : List UInt8}
    (encoded : encodeStrict text = some message) : message = encodeUtf8 text := by
  unfold encodeStrict at encoded
  split at encoded
  · cases encoded
  · exact (Option.some.inj encoded).symm

theorem any_legacyHashKeys {secret tokenHash : Str}
    (other : ¬ Matches crypto settings.tokenHashKey secret tokenHash) :
    ((legacyHashKeys settings).any fun key =>
        decide (hashSecret crypto settings secret (some key) = some tokenHash)) = true ↔
      Matches crypto settings.secretKey secret tokenHash := by
  have hashed : hashSecret crypto settings secret (some settings.secretKey) = some tokenHash ↔
      Matches crypto settings.secretKey secret tokenHash := Option.map_eq_some_iff
  by_cases same : settings.secretKey.text = settings.tokenHashKey.text
  · have keys : settings.secretKey.bytes = settings.tokenHashKey.bytes := congrArg encodeUtf8 same
    rw [legacyHashKeys, if_neg (not_not.mpr same)]
    constructor
    · intro listed
      cases listed
    · rintro ⟨message, encoded, hash⟩
      exact absurd ⟨message, encoded, keys ▸ hash⟩ other
  · rw [legacyHashKeys, if_pos same, List.any_cons, List.any_nil, Bool.or_false,
      decide_eq_true_eq, hashed]

/-- The hash is that under the current key, or that under the secret key, or neither. -/
theorem matchedLegacyKey_cases {secret : Str} (tokenHash : Str) {message : List UInt8}
    (encoded : encodeStrict secret = some message) :
    (tokenHash = crypto.hmac settings.tokenHashKey.bytes message ∧
        matchedLegacyKey crypto settings tokenHash
          (crypto.hmac settings.tokenHashKey.bytes message) secret = some false) ∨
      (Matches crypto settings.secretKey secret tokenHash ∧
        matchedLegacyKey crypto settings tokenHash
          (crypto.hmac settings.tokenHashKey.bytes message) secret = some true) ∨
      (¬ Matches crypto settings.tokenHashKey secret tokenHash ∧
        ¬ Matches crypto settings.secretKey secret tokenHash ∧
        matchedLegacyKey crypto settings tokenHash
          (crypto.hmac settings.tokenHashKey.bytes message) secret = none) := by
  by_cases current : tokenHash = crypto.hmac settings.tokenHashKey.bytes message
  · exact .inl ⟨current, if_pos current⟩
  · right
    have other : ¬ Matches crypto settings.tokenHashKey secret tokenHash := by
      rintro ⟨found, again, hash⟩
      rw [encoded] at again
      cases again
      exact current hash.symm
    rw [matchedLegacyKey, if_neg current]
    by_cases legacy : Matches crypto settings.secretKey secret tokenHash
    · exact .inl ⟨legacy, if_pos ((any_legacyHashKeys other).mpr legacy)⟩
    · exact .inr ⟨other, legacy, if_neg (mt (any_legacyHashKeys other).mp legacy)⟩

/-- A raw token that names a live row and has its secret authenticates and rekeys it. -/
theorem Authenticated.authenticate {table : TokenTable ω}
    {rawToken typePrefix lookupPrefix secret : Str} {token : TokenRow ω}
    (plain : underscore ∉ typePrefix)
    (held : Authenticated crypto settings now table rawToken typePrefix lookupPrefix secret token) :
    ∃ after, authenticate crypto settings now table (some rawToken) typePrefix =
        some (some (lookupPrefix, rekeyed crypto settings token secret), after) ∧
      ∀ name, after.find name =
        if name = lookupPrefix then some (rekeyed crypto settings token secret)
        else table.find name := by
  have parts : splitMax underscore 2 rawToken = [typePrefix, lookupPrefix, secret] := by
    rw [held.raw, splitMax_append plain, splitMax_append held.plain]
    rfl
  obtain ⟨message, encoded⟩ : ∃ message, encodeStrict secret = some message := by
    rcases held.matched with ⟨message, encoded, -⟩ | ⟨message, encoded, -⟩ <;>
      exact ⟨message, encoded⟩
  obtain rfl := encodeStrict_eq encoded
  have current : hashSecret crypto settings secret none =
      some (crypto.hmac settings.tokenHashKey.bytes (encodeUtf8 secret)) := by
    rw [hashSecret, encoded]
    rfl
  have live : (table.find lookupPrefix).filter TokenRow.isActive = some token := by
    rw [held.found, Option.filter_some, if_pos held.active]
  simp only [Goggles.authenticate, Option.getD_some, parts, ne_eq, not_true_eq_false, if_false,
    live, current, held.unexpired]
  rcases @matchedLegacyKey_cases crypto settings secret token.tokenHash _ encoded with
    ⟨hash, matched⟩ | ⟨-, matched⟩ | ⟨notCurrent, notLegacy, -⟩
  · have unchanged : rekeyed crypto settings token secret = token := by
      rw [rekeyed, ← hash]
    refine ⟨table, by simp [matched, unchanged], fun name => ?_⟩
    split
    · next same => rw [same, held.found, unchanged]
    · rfl
  · refine ⟨table.upsert lookupPrefix fun _ => rekeyed crypto settings token secret, by
      simp [matched, rekeyed], fun name => ?_⟩
    exact Keyed.find_upsert table lookupPrefix name _
  · exact absurd held.matched (by simp [notCurrent, notLegacy])

theorem authenticated_of_parts {table : TokenTable ω} {rawToken : Option Str}
    {tokenType typePrefix lookupPrefix secret : Str} {token : TokenRow ω}
    (parts : splitMax underscore 2 (rawToken.getD []) = [tokenType, lookupPrefix, secret])
    (sameType : tokenType = typePrefix)
    (live : (table.find lookupPrefix).filter TokenRow.isActive = some token)
    (unexpired : token.isExpired now = false)
    (matched : Matches crypto settings.tokenHashKey secret token.tokenHash ∨
      Matches crypto settings.secretKey secret token.tokenHash) :
    ∃ raw lookupPrefix secret token, rawToken = some raw ∧
      Authenticated crypto settings now table raw typePrefix lookupPrefix secret token := by
  obtain ⟨found, active⟩ := Option.filter_eq_some_iff.mp live
  obtain ⟨rest, whole, -, parts⟩ := splitMax_eq_cons parts
  obtain ⟨last, rfl, plain, parts⟩ := splitMax_eq_cons parts
  obtain rfl : last = secret := by simpa [splitMax] using parts
  cases rawToken with
  | none => simp at whole
  | some raw =>
      refine ⟨raw, lookupPrefix, last, token, rfl, ?_, plain, found, active, unexpired, matched⟩
      rw [← sameType]
      exact whole

/-- Authentication changes nothing, or the raw token names a live row and has its secret. -/
theorem authenticate_cases {table after : TokenTable ω} {rawToken : Option Str}
    {typePrefix : Str} {found : Option (Str × TokenRow ω)}
    (done : Goggles.authenticate crypto settings now table rawToken typePrefix =
      some (found, after)) :
    (found = none ∧ after = table) ∨
      ∃ raw lookupPrefix secret token, rawToken = some raw ∧
        Authenticated crypto settings now table raw typePrefix lookupPrefix secret token := by
  unfold Goggles.authenticate at done
  split at done
  · next tokenType lookupPrefix secret parts =>
      split at done
      · cases done
        exact .inl ⟨rfl, rfl⟩
      next sameType =>
      split at done
      · cases done
        exact .inl ⟨rfl, rfl⟩
      next token live =>
      cases encoded : encodeStrict secret with
      | none =>
          rw [hashSecret, encoded] at done
          cases done
      | some message =>
          have current : hashSecret crypto settings secret none =
              some (crypto.hmac settings.tokenHashKey.bytes message) := by
            rw [hashSecret, encoded]
            rfl
          have matching :=
            @matchedLegacyKey_cases crypto settings secret token.tokenHash message encoded
          rw [current] at done
          simp only [Option.bind_eq_bind, Option.bind_some] at done
          by_cases expired : token.isExpired now = true
          · left
            rcases matching with ⟨-, matched⟩ | ⟨-, matched⟩ | ⟨-, -, matched⟩ <;>
              · simp only [matched, expired, if_true] at done
                cases done
                exact ⟨rfl, rfl⟩
          rw [Bool.not_eq_true] at expired
          rcases matching with ⟨hash, -⟩ | ⟨legacy, -⟩ | ⟨-, -, matched⟩
          · exact .inr (authenticated_of_parts parts (not_not.mp sameType) live expired
              (.inl ⟨message, encoded, hash.symm⟩))
          · exact .inr (authenticated_of_parts parts (not_not.mp sameType) live expired (.inr legacy))
          · simp only [matched] at done
            cases done
            exact .inl ⟨rfl, rfl⟩
  · cases done
    exact .inl ⟨rfl, rfl⟩

end Authenticate

/-! ### The two models -/

inductive TokenModel where
  | uploadToken
  | personalAccessToken
deriving DecidableEq, Repr

namespace TokenModel

/-- `TOKEN_PREFIX`. -/
def TOKEN_PREFIX : TokenModel → Str
  | .uploadToken => lit "goggles"
  | .personalAccessToken => lit "gpat"

/-- An upload token names no one, a personal access token its user. -/
abbrev Owner : TokenModel → Type
  | .uploadToken => Unit
  | .personalAccessToken => Nat

/-- Whether the owner, if there is one, is active. -/
def ownerActive (activeUsers : List Nat) : (model : TokenModel) → model.Owner → Bool
  | .uploadToken, _ => true
  | .personalAccessToken, user => activeUsers.contains user

section Models

variable (model : TokenModel) (crypto : Crypto) (settings : TokenSettings)

/-- `issue`; `none` is the `IntegrityError` of a prefix that is taken. -/
def issue (table : TokenTable model.Owner) (name : Str) (owner : model.Owner)
    (expiresAt : Option Int) (minted : Minted) : Option (Str × TokenTable model.Owner) := do
  let tokenHash ← hashSecret crypto settings minted.secret none
  if (table.find minted.lookupPrefix).isSome then none
  else
    return (generateRawToken model.TOKEN_PREFIX minted,
      table.upsert minted.lookupPrefix fun _ =>
        { name := name, tokenHash := tokenHash, isActive := true, expiresAt := expiresAt,
          lastUsedAt := none, owner := owner })

/-- `UploadToken.authenticate` and `PersonalAccessToken.authenticate`. -/
def authenticate (activeUsers : List Nat) (now : Int) (table : TokenTable model.Owner)
    (rawToken : Option Str) :
    Option (Option (Str × TokenRow model.Owner) × TokenTable model.Owner) :=
  (Goggles.authenticate crypto settings now table rawToken model.TOKEN_PREFIX).map fun found =>
    (found.1.filter fun entry => model.ownerActive activeUsers entry.2.owner, found.2)

end Models

theorem underscore_notMem_prefix (model : TokenModel) : underscore ∉ model.TOKEN_PREFIX := by
  cases model <;> decide

theorem prefix_injective {model other : TokenModel} (same : model.TOKEN_PREFIX = other.TOKEN_PREFIX) :
    model = other := by
  cases model <;> cases other <;> first | rfl | exact absurd same (by decide)

end TokenModel

end Goggles
