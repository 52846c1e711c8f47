import PaymentGateway.Api.Merchants
import PaymentGateway.Runs.Serial
import PaymentGateway.Specs.Requests

/-! # Tokens of merchants

`create_access_token` is given the id of the merchant as it comes from the database, a UUID, which
no JSON can represent. So no merchant ever gets a token. -/

namespace PaymentGateway.Results.Tokens

open PaymentGateway.Core.Ids PaymentGateway.Models PaymentGateway.Lib.Program
open PaymentGateway.Lib.Sessions PaymentGateway.Lib.Tables PaymentGateway.Lib.JsonLoads
open PaymentGateway.Db.Statements
open PaymentGateway.Core.Tokens PaymentGateway.Api.Deps PaymentGateway.Api.Merchants
open PaymentGateway.Specs.Requests

variable {env : Environment} {form : PasswordForm} {d : Db} {merchant : Merchant} {now : ℚ}

/-- The key and the secret of an active merchant. -/
structure Presented (env : Environment) (form : PasswordForm) (d : Db) (merchant : Merchant) :
    Prop where
  row : merchant ∈ d.merchants
  active : merchant.isActive = true
  key : merchant.apiKeyHash = env.deriveKey form.username
  secret : verifyCredential env.deriveKey form.password merchant.secretHash = .ok true

/-- What the authentication of a request makes of a token; `primaryKey` is the id that the driver
makes of a JSON value. -/
def securityAt (env : Environment) (primaryKey : Json → Option UUID) (later : ℚ) : Security where
  decodeAccessToken token :=
    (decodeAccessToken env.jose env.settings later token).map fun claims =>
      (claims.lookup "mid").bind primaryKey
  deriveKey := env.deriveKey

/-- **A token is issued**, and until it expires it authenticates the merchant in every database in
which the merchant is active. -/
def Authenticates (env : Environment) (primaryKey : Json → Option UUID) (form : PasswordForm)
    (d : Db) (merchant : Merchant) (now : ℚ) : Prop :=
  ∃ response, (database.serve (merchantToken env form now) d).1 = .ok response ∧
    ∀ (d' : Db) (later : ℚ), (d'.merchants.map Merchant.id).Nodup →
      ∀ merchant' ∈ d'.merchants, merchant'.id = merchant.id → merchant'.isActive = true →
        later < expires env.settings now →
          (database.serve (getCurrentMerchant (securityAt env primaryKey later)
            ⟨some response.accessToken, none⟩) d').1 = .ok merchant'

/-! ### The endpoint -/

/-- The merchants with the key. -/
def rowsOf (env : Environment) (form : PasswordForm) (d : Db) : List Merchant :=
  d.merchants.filter (·.apiKeyHash = env.deriveKey form.username)

theorem run_merchantToken (env : Environment) (form : PasswordForm) (now : ℚ) (d : Db) : ∃ l,
    database.run (merchantToken env form now) d .closed =
      database.run (scalarOneOrNone (rowsOf env form d) >>= issue env form now) d l := by
  obtain ⟨l, hload, -⟩ := run_loadIntents (rowsOf env form d) (synced_closed d)
  exact ⟨l, Machine.run_bind_ok _ hload⟩

/-- The right secret ends in a `TypeError`, since the id of the merchant is a UUID. -/
theorem issue_some (env : Environment) (form : PasswordForm) (now : ℚ) (merchant : Merchant) :
    issue env form now (some merchant) =
      Prog.ofExcept (verifyCredential env.deriveKey form.password merchant.secretHash) >>=
        fun valid => if valid then .raise .typeError else .raise incorrectKey := by
  unfold issue
  dsimp only
  rw [createAccessToken_uuid]
  rfl

/-- Whoever it is, there is an exception. -/
theorem issue_raises (env : Environment) (form : PasswordForm) (now : ℚ)
    (merchant : Option Merchant) : ∃ exc, issue env form now merchant = .raise exc := by
  cases merchant with
  | none => exact ⟨incorrectKey, rfl⟩
  | some merchant =>
    rw [issue_some]
    cases verifyCredential env.deriveKey form.password merchant.secretHash with
    | error exc => exact ⟨exc, rfl⟩
    | ok valid =>
      cases valid with
      | false => exact ⟨incorrectKey, rfl⟩
      | true => exact ⟨.typeError, rfl⟩

/-- `merchant_token` never returns. -/
theorem merchantToken_raises (env : Environment) (form : PasswordForm) (now : ℚ) (d : Db) :
    ∃ exc, (database.serve (merchantToken env form now) d).1 = .error exc := by
  obtain ⟨l, hrun⟩ := run_merchantToken env form now d
  have hraise : ∃ exc, scalarOneOrNone (rowsOf env form d) >>= issue env form now = .raise exc := by
    match rowsOf env form d with
    | [] => exact issue_raises env form now none
    | [merchant] => exact issue_raises env form now (some merchant)
    | _ :: _ :: _ => exact ⟨.multipleResultsFound, rfl⟩
  obtain ⟨exc, hexc⟩ := hraise
  rw [hexc] at hrun
  exact ⟨exc, congrArg Prod.fst hrun⟩

/-- A merchant with the right secret gets a `TypeError`. -/
theorem merchantToken_presented (hunique : (d.merchants.map Merchant.apiKeyHash).Nodup)
    (h : Presented env form d merchant) :
    (database.serve (merchantToken env form now) d).1 = .error .typeError := by
  obtain ⟨l, hrun⟩ := run_merchantToken env form now d
  have hrows : rowsOf env form d = [merchant] :=
    filter_eq_singleton hunique h.row h.key fun m _ hm => hm.trans h.key.symm
  have hraise : scalarOneOrNone [merchant] >>= issue env form now = .raise .typeError := by
    change issue env form now (some merchant) = _
    rw [issue_some, h.secret]
    rfl
  rw [hrows, hraise] at hrun
  exact congrArg Prod.fst hrun

/-- **No token** is issued to anyone. -/
theorem not_authenticates (env : Environment) (primaryKey : Json → Option UUID)
    (form : PasswordForm) (d : Db) (merchant : Merchant) (now : ℚ) :
    ¬ Authenticates env primaryKey form d merchant now := by
  rintro ⟨response, hresponse, -⟩
  obtain ⟨exc, hexc⟩ := merchantToken_raises env form now d
  rw [hexc] at hresponse
  cases hresponse

namespace Sample

/-- `derive_key` of a key and of a secret, under the default salt. -/
def derived (token : String) : String :=
  if token = "live-key" then "e3edcc2bae6e1be6c0d2ddd18422bda0a040724969cfba6dc814f5ce8282b4da"
  else "50a502ee0bcd1ea50b21079e800c8d960bed034aa5663e7f5e62a4b406cfd364"

/-- No token is ever signed or decoded. -/
def defaults : Environment :=
  ⟨⟨fun _ _ _ => "", fun _ _ _ _ => .error "Not enough segments"⟩, ⟨"change-me", "HS256", 30⟩,
    derived⟩

def keyAndSecret : PasswordForm := ⟨"live-key", "live-secret"⟩

def shop : Merchant :=
  { Runs.Serial.Sample.shop with
    apiKeyHash := derived "live-key", secretHash := derived "live-secret" }

def db : Db := Db.empty [shop]

theorem presented : Presented defaults keyAndSecret db shop where
  row := List.mem_cons_self
  active := rfl
  key := rfl
  secret := by decide +kernel

end Sample

/-- A merchant presents the right key and secret. -/
theorem not_authenticates_shop :
    Presented Sample.defaults Sample.keyAndSecret Sample.db Sample.shop ∧
      ¬ Authenticates Sample.defaults (fun _ => none) Sample.keyAndSecret Sample.db Sample.shop
        1000 := by
  refine ⟨Sample.presented, ?_⟩
  rintro ⟨response, hresponse, -⟩
  have hunique : (Sample.db.merchants.map Merchant.apiKeyHash).Nodup := List.nodup_singleton _
  rw [merchantToken_presented hunique Sample.presented] at hresponse
  cases hresponse

end PaymentGateway.Results.Tokens
