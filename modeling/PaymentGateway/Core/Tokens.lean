import PaymentGateway.Db.Statements
import PaymentGateway.Lib.JsonLoads
import Mathlib.Data.Rat.Floor

/-! # Access tokens

`create_access_token` and `decode_access_token`. The signature is the business of python-jose, a
parameter (`Jose`): `jwt.encode` makes numbers of the dates among the claims, writes the claims as
JSON, and signs that. -/

namespace PaymentGateway.Core.Tokens

open PaymentGateway.Core.Ids PaymentGateway.Lib.Numerals PaymentGateway.Lib.JsonLoads
open PaymentGateway.Db.Statements

/-- A Python value. -/
inductive PyValue
  | str (s : String)
  | int (n : ℤ)
  | datetime (t : ℚ)
  | uuid (u : UUID)

/-- The members of a JSON object. -/
abbrev Claims := List (String × Json)

structure Jose where
  /-- The token of claims, for a key and an algorithm. -/
  sign : Claims → String → String → String
  /-- `jwt.decode`, at a time: the claims, or the text of a `JWTError`. -/
  decode : String → String → List String → ℚ → Except String Claims

structure Settings where
  secretKey : String
  jwtAlgorithm : String
  jwtAccessTokenExpireMinutes : ℤ

/-- The claims that `jwt.encode` takes dates from. -/
def timeClaims : List String := ["exp", "iat", "nbf"]

/-- A claim in JSON, if it can be written. -/
def jsonClaim : String × PyValue → Except Exc (String × Json)
  | (name, .str s) => .ok (name, .str (text s))
  | (name, .int n) => .ok (name, .int n)
  | (name, .datetime t) =>
    if name ∈ timeClaims then .ok (name, .int ⌊t⌋) else .error .typeError
  | (_, .uuid _) => .error .typeError

/-- `jwt.encode` -/
def jwtEncode (jose : Jose) (claims : List (String × PyValue)) (key algorithm : String) :
    Except Exc String := do
  let payload ← claims.mapM jsonClaim
  return jose.sign payload key algorithm

/-- `datetime.now(UTC) + timedelta(minutes=…)` -/
def expires (settings : Settings) (now : ℚ) : ℚ := now + 60 * settings.jwtAccessTokenExpireMinutes

/-- `create_access_token`, whose `merchant_id` is declared as an `int`. -/
def createAccessToken (jose : Jose) (settings : Settings) (now : ℚ) (subject : String)
    (merchantId : PyValue) : Except Exc String :=
  jwtEncode jose [("sub", .str subject), ("mid", merchantId),
    ("exp", .datetime (expires settings now)), ("iat", .datetime now)]
    settings.secretKey settings.jwtAlgorithm

/-- `decode_access_token`; the error is the text of its `ValueError`. -/
def decodeAccessToken (jose : Jose) (settings : Settings) (now : ℚ) (token : String) :
    Except String Claims :=
  (jose.decode token settings.secretKey [settings.jwtAlgorithm] now).mapError
    fun exc => "Invalid or expired token: " ++ exc

/-- No UUID can be written as JSON. -/
theorem createAccessToken_uuid (jose : Jose) (settings : Settings) (now : ℚ) (subject : String)
    (id : UUID) : createAccessToken jose settings now subject (.uuid id) = .error .typeError := rfl

/-- Until it expires, a token is decoded to the claims that it was made of. -/
def Jose.Faithful (jose : Jose) : Prop := ∀ (claims : Claims) (key algorithm : String) (now : ℚ)
  (exp : ℤ), claims.lookup "exp" = some (.int exp) → now < exp →
    jose.decode (jose.sign claims key algorithm) key [algorithm] now = .ok claims

/-- **The round trip** of an id that JSON can represent. -/
theorem decode_createAccessToken {jose : Jose} (h : jose.Faithful) {settings : Settings}
    {now later : ℚ} {subject : String} {merchantId : PyValue} {mid : Json}
    (hmid : jsonClaim ("mid", merchantId) = .ok ("mid", mid))
    (hlater : later < ⌊expires settings now⌋) : ∃ token claims,
      createAccessToken jose settings now subject merchantId = .ok token ∧
        decodeAccessToken jose settings later token = .ok claims ∧
          claims.lookup "mid" = some mid := by
  let payload : Claims := [("sub", .str (text subject)), ("mid", mid),
    ("exp", .int ⌊expires settings now⌋), ("iat", .int ⌊now⌋)]
  have hpayload : [("sub", .str subject), ("mid", merchantId),
      ("exp", .datetime (expires settings now)), ("iat", .datetime now)].mapM jsonClaim =
        .ok payload := by
    simp only [List.mapM_cons, hmid]
    rfl
  refine ⟨jose.sign payload settings.secretKey settings.jwtAlgorithm, payload, ?_, ?_, rfl⟩
  · unfold createAccessToken jwtEncode
    rw [hpayload]
    rfl
  · unfold decodeAccessToken
    rw [h payload _ _ later ⌊expires settings now⌋ rfl hlater]
    rfl

end PaymentGateway.Core.Tokens
