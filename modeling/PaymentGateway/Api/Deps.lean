import PaymentGateway.Db.Statements

/-! # Authentication

`get_current_merchant` runs in the session of the request. Loading a merchant loads all of its
intents with it, since `Merchant.payment_intents` is `lazy="selectin"`. -/

namespace PaymentGateway.Api.Deps

open PaymentGateway.Core.Ids PaymentGateway.Models
open PaymentGateway.Lib.Program PaymentGateway.Db.Statements

/-- The credentials of a request: the bearer token and the `X-Api-Key` header. -/
structure Credentials where
  token : Option String
  apiKey : Option String
  deriving DecidableEq

/-- The cryptography, which is not ours. -/
structure Security where
  /-- `decode_access_token(token).get("mid")`, or the text of its `ValueError`. -/
  decodeAccessToken : String → Except String (Option UUID)
  /-- `derive_key` -/
  deriveKey : String → String

/-- The `selectin` queries for the merchants a SELECT has returned. -/
def loadIntents : List Merchant → Sql Unit
  | [] => .ret ()
  | m :: ms => do
    execute (.selectinPaymentIntents m.id)
    loadIntents ms

def invalidCredentials : Exc := .httpException 401 "Invalid or missing credentials"

/-- The merchant of the credentials; a token that is not empty is preferred. -/
def findMerchant (security : Security) (credentials : Credentials) : Sql (Option Merchant) :=
  match credentials.token.filter (· ≠ ""), credentials.apiKey with
  | some token, _ =>
    match security.decodeAccessToken token with
    | .error detail => throw (.httpException 401 detail)
    | .ok none => throw (.httpException 401 "Invalid token payload")
    | .ok (some merchantId) => do
      let rows ← execute (.selectMerchantById merchantId)
      loadIntents rows
      scalarOneOrNone rows
  | none, some apiKey => do
    let rows ← execute (.selectMerchantByKeyHash (security.deriveKey apiKey))
    loadIntents rows
    scalarOneOrNone rows
  | none, none => return none

def getCurrentMerchant (security : Security) (credentials : Credentials) : Sql Merchant := do
  let merchant ← findMerchant security credentials
  match merchant with
  | some merchant => if merchant.isActive then return merchant else throw invalidCredentials
  | none => throw invalidCredentials

end PaymentGateway.Api.Deps
