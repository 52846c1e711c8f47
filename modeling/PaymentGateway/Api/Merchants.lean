import PaymentGateway.Api.Deps
import PaymentGateway.Core.Security
import PaymentGateway.Core.Tokens

/-! # The merchants router

`merchant_token` exchanges the key and the secret of a merchant for an access token. -/

namespace PaymentGateway.Api.Merchants

open PaymentGateway.Models PaymentGateway.Lib.Program PaymentGateway.Db.Statements
open PaymentGateway.Core.Security PaymentGateway.Core.Tokens PaymentGateway.Api.Deps

/-- `OAuth2PasswordRequestForm`: the key and the secret. -/
structure PasswordForm where
  username : String
  password : String
  deriving DecidableEq

structure TokenResponse where
  accessToken : String
  tokenType : String
  expiresIn : ℤ

/-- What the endpoint has besides the database. -/
structure Environment where
  jose : Jose
  settings : Settings
  /-- `derive_key` -/
  deriveKey : String → String

/-- `verify_credential` -/
def verifyCredential (deriveKey : String → String) (plaintext storedHash : String) :
    Except Exc Bool := secureCompare (deriveKey plaintext) storedHash

def incorrectKey : Exc := .httpChallenge 401 "Incorrect API key or secret" "Bearer"

/-- The answer to the merchant whose key was presented, if there is one. -/
def issue (env : Environment) (form : PasswordForm) (now : ℚ) (merchant : Option Merchant) :
    Sql TokenResponse :=
  match merchant with
  | none => throw incorrectKey
  | some merchant => do
    let valid ← Prog.ofExcept (verifyCredential env.deriveKey form.password merchant.secretHash)
    if valid then
      let token ← Prog.ofExcept
        (createAccessToken env.jose env.settings now merchant.id.str (.uuid merchant.id))
      return ⟨token, "bearer", env.settings.jwtAccessTokenExpireMinutes * 60⟩
    else throw incorrectKey

def merchantToken (env : Environment) (form : PasswordForm) (now : ℚ) : Sql TokenResponse := do
  let rows ← execute (.selectMerchantByKeyHash (env.deriveKey form.username))
  loadIntents rows
  let merchant ← scalarOneOrNone rows
  issue env form now merchant

end PaymentGateway.Api.Merchants
