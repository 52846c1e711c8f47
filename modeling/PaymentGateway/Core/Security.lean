import PaymentGateway.Db.Statements
import PaymentGateway.Lib.Numerals

/-! # Signatures of callbacks

`sign_payload` is an arbitrary function of the bytes and the secret. -/

namespace PaymentGateway.Core.Security

open PaymentGateway.Db.Statements

/-- `hmac.compare_digest` of two strings, which takes ASCII only. -/
def secureCompare (left right : String) : Except Exc Bool :=
  if (left.toList ++ right.toList).all (·.toNat < 128) then .ok (left = right)
  else .error .typeError

/-- What `sign_payload` returns is the `hexdigest` of an HMAC-SHA256. -/
def Hexdigest (signPayload : List UInt8 → String → String) : Prop := ∀ payload secret,
  (signPayload payload secret).length = 64 ∧
    ∀ c ∈ (signPayload payload secret).toList, c ∈ "0123456789abcdef".toList

theorem secureCompare_ascii {left right : String}
    (h : (left.toList ++ right.toList).all (·.toNat < 128) = true) :
    secureCompare left right = .ok (left = right) :=
  if_pos h

theorem hexdigest_const {digest : String} (hlen : digest.length = 64)
    (hall : digest.toList.all ("0123456789abcdef".toList.contains ·) = true) :
    Hexdigest fun _ _ => digest := fun _ _ =>
  ⟨hlen, fun c hc => List.contains_iff_mem.mp (List.all_eq_true.mp hall c hc)⟩

theorem Hexdigest.ascii {signPayload : List UInt8 → String → String} (h : Hexdigest signPayload)
    (payload : List UInt8) (secret : String) :
    (signPayload payload secret).toList.all (·.toNat < 128) = true := by
  have hdigits : "0123456789abcdef".toList.all (·.toNat < 128) = true := by decide +kernel
  exact List.all_eq_true.mpr fun c hc => List.all_eq_true.mp hdigits c ((h payload secret).2 c hc)

def verifySignature (signPayload : List UInt8 → String → String) (payload : List UInt8)
    (secret signature : String) : Except Exc Bool :=
  secureCompare (signPayload payload secret) signature

/-- The digest passes as the signature of its payload. -/
theorem Hexdigest.verifySignature {signPayload : List UInt8 → String → String}
    (h : Hexdigest signPayload) (payload : List UInt8) (secret : String) :
    verifySignature signPayload payload secret (signPayload payload secret) = .ok true := by
  have hascii := h.ascii payload secret
  unfold Security.verifySignature
  rw [secureCompare_ascii (by rw [List.all_append, hascii]; rfl)]
  simp

end PaymentGateway.Core.Security
