import PaymentGateway.Specs.Books
import PaymentGateway.Results.Serializability

/-! # Callbacks for different payments commute

Callbacks may share the accounts of the merchant and of the payer, and any of them may be the one
that opens an account. Only the ids of the accounts tell in what order they were served. -/

namespace PaymentGateway.Results.Commutation

open PaymentGateway.Core.Ids PaymentGateway.Models PaymentGateway.Schemas
open PaymentGateway.Lib.Sessions PaymentGateway.Lib.Calls PaymentGateway.Db.Statements
open PaymentGateway.Services.Webhook
open PaymentGateway.State.Changes PaymentGateway.Runs.Serial
open PaymentGateway.Specs.Callback PaymentGateway.Specs.Accounts PaymentGateway.Specs.Books

variable {d : Db} {cs cs' : List BankCallback}

/-- **Callbacks commute.** In a state reached by calls, callbacks of different references, which draw
ids of their own and keep the balances in range, may be served in any order: each has the same answer,
the intents and transactions are the same after them, and so are the balance of each identifier and
currency and, up to their order and the ids of the accounts, the entries. -/
theorem callbacks_commute (hd : Reachable d) (hnew : ∀ c ∈ cs, Fresh c.ids d)
    (hcs : cs.Pairwise Apart) (hr : Along BankCallback.serve Postable cs d) (hp : cs.Perm cs') :
    let r := runAll BankCallback.serve cs d
    let r' := runAll BankCallback.serve cs' d
    r.1.Perm r'.1 ∧ r.2.intents = r'.2.intents ∧ r.2.transactions = r'.2.transactions ∧
      (∀ key, (accountAt key r.2).map (·.balance.units) =
        (accountAt key r'.2).map (·.balance.units)) ∧
      (r.2.entries.map (line r.2)).Perm (r'.2.entries.map (line r'.2)) := by
  intro r r'
  obtain ⟨hanswers, hbook⟩ := books.perm hd hnew hcs hr hp
  exact ⟨hanswers, congrArg Book.intents hbook, congrArg Book.transactions hbook,
    fun key => congrFun (congrArg Book.balances hbook) key,
    Multiset.coe_eq_coe.mp (congrArg Book.lines hbook)⟩

/-! ### Two callbacks that share the merchant's account -/

namespace Sample

open PaymentGateway.Results.Serializability.Sample

def sent (i : Two) : BankCallback :=
  ⟨(callbacks i).event, (callbacks i).pspReference, (callbacks i).amount, (callbacks i).ids⟩

def sentAll : List BankCallback := [sent .first, sent .second]

theorem fresh_of_empty {ids : CallbackIds} (ha : d.accounts = []) (he : d.entries = [])
    (h : ids.payerAccountId ≠ ids.merchantAccountId ∧ ids.debitEntryId ≠ ids.creditEntryId) :
    Fresh ids d := by
  constructor <;> simp [ha, he, h]

theorem fresh_sent : ∀ c ∈ sentAll, Fresh c.ids waiting := by
  intro c hc
  rcases List.mem_pair.mp hc with rfl | rfl
  · exact fresh_of_empty (by decide +kernel) (by decide +kernel) (by decide)
  · exact fresh_of_empty (by decide +kernel) (by decide +kernel) (by decide)

theorem apart_sent : sentAll.Pairwise Apart := by
  have haccounts : ∀ id ∈ accountIds (sent .first).ids, id ∉ accountIds (sent .second).ids := by
    decide
  have hentries : ∀ id ∈ entryIds (sent .first).ids, id ∉ entryIds (sent .second).ids := by decide
  exact List.pairwise_pair.mpr
    ⟨by decide, fun id hid => haccounts id hid, fun id hid => hentries id hid⟩

theorem along_sent : Along BankCallback.serve Postable sentAll waiting :=
  ⟨postable_of_small (by decide +kernel), postable_of_small (by decide +kernel), trivial⟩

end Sample

/-- Whoever comes first opens the merchant's account, and gives it its id. -/
theorem callbacks_commute_sent :
    let r := runAll BankCallback.serve Sample.sentAll Serializability.Sample.waiting
    let r' := runAll BankCallback.serve Sample.sentAll.reverse Serializability.Sample.waiting
    r.2.accounts.map (·.id) ≠ r'.2.accounts.map (·.id) ∧ r.1.Perm r'.1 ∧
      (r.2.entries.map (line r.2)).Perm (r'.2.entries.map (line r'.2)) := by
  obtain ⟨hanswers, -, -, -, hlines⟩ := callbacks_commute Serializability.Sample.waiting_reachable
    Sample.fresh_sent Sample.apart_sent Sample.along_sent (List.reverse_perm _).symm
  exact ⟨by decide +kernel, hanswers, hlines⟩

end PaymentGateway.Results.Commutation
