import HttpsServ.Utility

/-!
# tls_adapter.c, the session part

The handshake loop repeats while the library asks to be called again. The
results of the library calls are inputs; the library itself is not modelled.
-/

namespace HttpsServ.TlsAdapter

open Utility

def wantRead : Int := -0x6900
def wantWrite : Int := -0x6880

/-- The loop over `mbedtls_ssl_handshake`; `none` while the last call has not
returned. -/
def handshakeLoop : List Int → Option Int
  | [] => none
  | ret :: results =>
      if ret = 0 then some 0
      else if ret ≠ wantRead ∧ ret ≠ wantWrite then some networkError
      else handshakeLoop results

/-- `ServerTlsSessionInit` on the results of `mbedtls_ssl_setup` and of the
handshake calls. -/
def serverTlsSessionInit (setup : Int) (handshake : List Int) : Option Int :=
  if setup ≠ 0 then some networkError else handshakeLoop handshake

theorem handshakeLoop_result {handshake : List Int} {ret : Int}
    (h : handshakeLoop handshake = some ret) : ret = 0 ∨ ret = networkError := by
  induction handshake with
  | nil => cases h
  | cons result results ih =>
      rw [handshakeLoop] at h
      split at h
      · exact .inl (Option.some.inj h).symm
      · split at h
        · exact .inr (Option.some.inj h).symm
        · exact ih h

/-- A session is initialised or it is not. -/
theorem serverTlsSessionInit_result {setup : Int} {handshake : List Int} {ret : Int}
    (h : serverTlsSessionInit setup handshake = some ret) : ret = 0 ∨ ret = networkError := by
  rw [serverTlsSessionInit] at h
  split at h
  · exact .inr (Option.some.inj h).symm
  · exact handshakeLoop_result h

end HttpsServ.TlsAdapter
