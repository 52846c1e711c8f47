import PaymentGateway.Results.Isolation
import PaymentGateway.Runs.Refinement

/-! # The gateway is a shop

Whatever the operations are, a run of the gateway cannot be told from a run of the abstract shop, in
which an order has a stage and there is no ledger. The only assumption is that the ids that are drawn
are different. -/

namespace PaymentGateway.Results.Refinement

open PaymentGateway.Core.Ids PaymentGateway.Models PaymentGateway.Lib.Calls
open PaymentGateway.Db.Statements PaymentGateway.Runs.Isolation PaymentGateway.Runs.Refinement
open PaymentGateway.Specs.Storefront

/-- **The gateway refines the shop.** From a database with merchants only, every operation of a run
is answered as the shop answers it, whoever uses which idempotency key, and however large the
balances are; the database stands for the shop at the end, and the ledger has on the account of every
payer and merchant what they have paid, or been paid, for the orders of the shop. -/
theorem gateway_refines (ms : List Merchant) (ops : List Op)
    (hids : (ops.flatMap Op.drawn).Nodup) :
    let run := runAll Op.serve ops (Db.empty ms)
    let shop := runAll Shop.serve ops ⟨ms.map (·.id), []⟩
    run.1 = shop.1 ∧ shopOf run.2 = shop.2 ∧
      ∀ holder, balanceOf holder run.2 = shop.2.balance holder := by
  intro run shop
  obtain ⟨hanswers, hshop, hlast⟩ := refines.run (drawable_empty ms hids)
  have hbalance : ∀ holder, balanceOf holder run.2 = (shopOf run.2).balance holder :=
    balanceOf_eq hlast.reachable
  exact ⟨hanswers, hshop, fun holder => (hbalance holder).trans (congrArg _ hshop)⟩

/-! ### Two merchants with one key -/

namespace Sample

open PaymentGateway.Runs.Serial.Sample PaymentGateway.Specs.Callback.Sample

/-- The cafe asks for an order with the key of the shop's, and the bank says again that this one is
paid. -/
def ops : List Op :=
  Isolation.Sample.ops ++ [.createOrder Isolation.Sample.cafe rupees ⟨uuid 31, "again"⟩,
    Isolation.Sample.paid "token" ⟨uuid 32, uuid 33, uuid 34, uuid 35⟩]

end Sample

/-- Alice has paid both, and neither the key nor the callback counts twice. -/
theorem gateway_refines_two :
    let start := Db.empty [Runs.Serial.Sample.shop, Isolation.Sample.cafe]
    let run := runAll Op.serve Sample.ops start
    let shop := runAll Shop.serve Sample.ops ⟨start.merchants.map (·.id), []⟩
    run.1 = shop.1 ∧ shop.2.orders.length = 2 ∧
      balanceOf (.payer "alice@bank") run.2 = shop.2.balance (.payer "alice@bank") ∧
      shop.2.balance (.payer "alice@bank") = 2000000 := by
  intro start run shop
  obtain ⟨hanswers, -, hbalance⟩ :=
    gateway_refines [Runs.Serial.Sample.shop, Isolation.Sample.cafe] Sample.ops (by decide)
  exact ⟨hanswers, by decide +kernel, hbalance _, by decide +kernel⟩

end PaymentGateway.Results.Refinement
