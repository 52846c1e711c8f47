import PaymentGateway.Results.Serializability
import PaymentGateway.Runs.Isolation

/-! # Merchants do not see each other

With the idempotency keys of the orders apart, a merchant cannot tell a run from the one in which
nobody else has done anything, although the accounts of the payers are shared. -/

namespace PaymentGateway.Results.Isolation

open PaymentGateway.Core.Ids PaymentGateway.Models PaymentGateway.Schemas
open PaymentGateway.Lib.Calls PaymentGateway.Db.Statements PaymentGateway.Runs.Serial
open PaymentGateway.Specs.Callback PaymentGateway.Specs.Accounts PaymentGateway.Specs.Books
open PaymentGateway.Runs.Isolation

/-- **Tenant isolation.** In a run from a database with merchants only, whose operations draw
different ids, use no idempotency key of another merchant, and keep the balances in range, leave out
the operations of all merchants but `A`, and the callbacks for their payments: the others are answered
as before, and `A` has the same intents and transactions, the same settlement account, and the same
entries on it. -/
theorem tenant_isolated (A : UUID) (ms : List Merchant) (ops : List Op)
    (hids : (ops.flatMap Op.drawn).Nodup) (hkeys : OwnKeys ops)
    (hfits : Along Op.serve Op.Fits ops (Db.empty ms)) :
    let full := runAll Op.serve ops (Db.empty ms)
    let alone := runAll Op.serve (kept Op.serve (Foreign A) ops (Db.empty ms)) (Db.empty ms)
    heard Op.serve (Foreign A) ops (Db.empty ms) = alone.1 ∧
      intentsOf A alone.2 = intentsOf A full.2 ∧ transactionsOf A alone.2 = transactionsOf A full.2 ∧
      accountAt (settlementKey A) alone.2 = accountAt (settlementKey A) full.2 ∧
      entriesAt (settlementKey A) alone.2 = entriesAt (settlementKey A) full.2 := by
  intro full alone
  have hready := ready_empty ms hids hkeys
  obtain ⟨hheard, hrel⟩ := (oblivious A).run ⟨hready, hready, hfits, same_empty A ms⟩
  exact ⟨hheard, hrel.same.views.1, hrel.same.views.2, hrel.same.account, hrel.same.entries⟩

/-! ### Two merchants with one payer -/

namespace Sample

open PaymentGateway.Runs.Serial.Sample PaymentGateway.Specs.Callback.Sample

def cafe : Merchant :=
  ⟨uuid 21, "Cafe", "cafe-key-hash", "cafe-secret-hash", true, none⟩

def cafeInitiation : UpiInitiateRequest :=
  { alicePays with
    orderId := newId "ord" "cafe"
    orderId_valid := by decide }

def paid (token : String) (ids : Services.Webhook.CallbackIds) : Op :=
  .processBankCallback ⟨.paymentSuccess, newId "psp" token, hundred, ids⟩

def cafeOps : List Op :=
  [.createOrder cafe Serializability.Sample.secondOrder ⟨uuid 22, "cafe"⟩,
    .initiateUpi cafe cafeInitiation ⟨uuid 23, "cafe", "cafe"⟩,
    paid "cafe" ⟨uuid 24, uuid 25, uuid 26, uuid 27⟩]

def shopOps : List Op :=
  [.createOrder shop rupees ⟨uuid 2, "token"⟩,
    .initiateUpi shop alicePays ⟨uuid 3, "token", "token"⟩,
    paid "token" drawn,
    .getOrder (newId "ord" "token") shop]

def ops : List Op := cafeOps ++ shopOps

theorem fits : Along Op.serve Op.Fits ops (Db.empty [shop, cafe]) :=
  ⟨trivial, trivial, postable_of_small (by decide +kernel), trivial, trivial,
    postable_of_small (by decide +kernel), trivial, trivial⟩

end Sample

/-- Alice has paid both, and the shop sees only its own. -/
theorem tenant_isolated_shop :
    let start := Db.empty [Runs.Serial.Sample.shop, Sample.cafe]
    let shop := Runs.Serial.Sample.shop.id
    let full := runAll Op.serve Sample.ops start
    let alone := runAll Op.serve (kept Op.serve (Foreign shop) Sample.ops start) start
    full.2.accounts.map (·.balance.units) = [2000000, 1000000, 1000000] ∧
      alone.2.accounts.map (·.balance.units) = [1000000, 1000000] ∧
      heard Op.serve (Foreign shop) Sample.ops start = alone.1 ∧
      accountAt (settlementKey shop) alone.2 = accountAt (settlementKey shop) full.2 := by
  intro start shop full alone
  obtain ⟨hheard, -, -, haccount, -⟩ :=
    tenant_isolated shop [Runs.Serial.Sample.shop, Sample.cafe] Sample.ops (by decide) (by decide)
      Sample.fits
  exact ⟨by decide +kernel, by decide +kernel, hheard, haccount⟩

end PaymentGateway.Results.Isolation
