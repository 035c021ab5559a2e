/-
# The score of a link

Whatever happens on a link, its error average stays between none and all, in
thousandths. So the share of successes is never negative, no plain operation of the
score leaves 64 bits, and a link with more throughput, fewer errors or a shorter round
trip never scores lower.
-/

import Mathlib.Algebra.Order.Ring.Int
import Mathlib.Data.List.Basic
import Mathlib.Order.MinMax
import Mlink.Core.Link

namespace Mlink.Core

/-! ## Integers of 64 bits -/

/-- The value is an `i64`. -/
def FitsI64 (value : Int) : Prop := -I64_MAX - 1 ≤ value ∧ value ≤ I64_MAX

instance (value : Int) : Decidable (FitsI64 value) := inferInstanceAs (Decidable (_ ∧ _))

/-- The result of a plain operation, if it does not overflow. -/
def exactI64 (value : Int) : Option Int := if FitsI64 value then some value else none

theorem exactI64_of_fits {value : Int} (fits : FitsI64 value) : exactI64 value = some value :=
  if_pos fits

/-- Saturating does not change the order of two results. -/
theorem saturateI64_mono {less more : Int} (hle : less ≤ more) :
    saturateI64 less ≤ saturateI64 more :=
  max_le_max_left _ (min_le_min_right _ hle)

/-- A result that is not negative saturates at the top only. -/
theorem saturateI64_of_nonneg {value : Int} (nonneg : 0 ≤ value) :
    saturateI64 value = min value I64_MAX := by
  rw [saturateI64, max_eq_right]
  exact le_min (by rw [I64_MAX]; omega) (by decide)

/-- A result that fits is not changed by saturating. -/
theorem saturateI64_of_fits {value : Int} (fits : FitsI64 value) : saturateI64 value = value := by
  rw [saturateI64, min_eq_left fits.2, max_eq_right fits.1]

/-! ## One score -/

/-- `scoreFrom`, which stops where a plain operation overflows. -/
def scoreChecked (caps : TransportCapabilities) (health : LinkHealth) : Option Int := do
  let throughput ← exactI64 (min caps.throughputBps.toNat I64_MAX)
  let successFactor ← exactI64 (1000 - health.errRateMilli.toNat)
  let base ← exactI64 ((saturateI64 (throughput * successFactor)).tdiv 1000)
  let delay ← exactI64 ((health.rttEmaUs.toNat : Int).tdiv 10)
  pure (saturateI64 (base - delay))

/-- Throughput that an `i64` can hold. -/
def throughputOf (caps : TransportCapabilities) : Int := min caps.throughputBps.toNat I64_MAX

/-- What the throughput is worth at an error rate. -/
def baseOf (caps : TransportCapabilities) (errRateMilli : UInt16) : Int :=
  (saturateI64 (throughputOf caps * (1000 - errRateMilli.toNat))).tdiv 1000

theorem throughputOf_nonneg (caps : TransportCapabilities) : 0 ≤ throughputOf caps :=
  le_min (Int.natCast_nonneg _) (by decide)

/-- A score is what the throughput is worth less a tenth of the round trip. -/
theorem scoreFrom_eq (caps : TransportCapabilities) (health : LinkHealth) :
    scoreFrom caps health =
      saturateI64 (baseOf caps health.errRateMilli - (health.rttEmaUs.toNat : Int).tdiv 10) := rfl

/-- As long as the error rate is one, throughput is worth something between nothing and
itself. -/
theorem baseOf_bounds (caps : TransportCapabilities) {errRateMilli : UInt16}
    (rate : errRateMilli.toNat ≤ 1000) :
    0 ≤ baseOf caps errRateMilli ∧ baseOf caps errRateMilli ≤ I64_MAX := by
  have hproduct : 0 ≤ throughputOf caps * (1000 - errRateMilli.toNat) :=
    Int.mul_nonneg (throughputOf_nonneg caps) (by omega)
  rw [baseOf, saturateI64_of_nonneg hproduct]
  have hmin : 0 ≤ min (throughputOf caps * (1000 - errRateMilli.toNat)) I64_MAX :=
    le_min hproduct (by decide)
  have htop : min (throughputOf caps * (1000 - errRateMilli.toNat)) I64_MAX ≤ I64_MAX :=
    min_le_right _ _
  rw [Int.tdiv_eq_ediv_of_nonneg hmin]
  omega

/-- A tenth of a 32-bit round trip is far below the limits. -/
theorem delay_bounds (rttEmaUs : UInt32) :
    0 ≤ (rttEmaUs.toNat : Int).tdiv 10 ∧ (rttEmaUs.toNat : Int).tdiv 10 < 2 ^ 32 := by
  have hlt := rttEmaUs.toNat_lt
  rw [Int.tdiv_eq_ediv_of_nonneg (Int.natCast_nonneg _)]
  omega

/-- With a rate of errors, the last subtraction does not saturate. -/
theorem scoreFrom_eq_sub (caps : TransportCapabilities) (health : LinkHealth)
    (rate : health.errRateMilli.toNat ≤ 1000) :
    scoreFrom caps health =
      baseOf caps health.errRateMilli - (health.rttEmaUs.toNat : Int).tdiv 10 := by
  obtain ⟨hbase, htop⟩ := baseOf_bounds caps rate
  obtain ⟨hdelay, hshort⟩ := delay_bounds health.rttEmaUs
  rw [scoreFrom_eq]
  apply saturateI64_of_fits
  rw [FitsI64]
  rw [I64_MAX] at htop ⊢
  omega

/-- No plain operation of the score overflows. -/
theorem scoreChecked_eq (caps : TransportCapabilities) (health : LinkHealth)
    (rate : health.errRateMilli.toNat ≤ 1000) :
    scoreChecked caps health = some (scoreFrom caps health) := by
  have hthroughput : FitsI64 (min caps.throughputBps.toNat I64_MAX) := by
    have hnonneg := throughputOf_nonneg caps
    rw [throughputOf] at hnonneg
    exact ⟨by rw [I64_MAX] at hnonneg ⊢; omega, min_le_right _ _⟩
  have hsuccess : FitsI64 (1000 - health.errRateMilli.toNat) := by
    rw [FitsI64, I64_MAX]
    omega
  have hbase : FitsI64 (baseOf caps health.errRateMilli) := by
    obtain ⟨hbase, htop⟩ := baseOf_bounds caps rate
    exact ⟨by rw [I64_MAX]; omega, htop⟩
  have hdelay : FitsI64 ((health.rttEmaUs.toNat : Int).tdiv 10) := by
    obtain ⟨hdelay, htop⟩ := delay_bounds health.rttEmaUs
    rw [FitsI64, I64_MAX]
    omega
  rw [baseOf, throughputOf] at hbase
  simp only [scoreChecked, exactI64_of_fits hthroughput, exactI64_of_fits hsuccess,
    exactI64_of_fits hbase, exactI64_of_fits hdelay, Option.bind_eq_bind, Option.bind_some,
    Option.pure_def]
  rfl

/-- More throughput, fewer errors and a shorter round trip score no lower. -/
theorem scoreFrom_mono {slow fast : TransportCapabilities} {worse better : LinkHealth}
    (throughput : slow.throughputBps ≤ fast.throughputBps)
    (errors : better.errRateMilli ≤ worse.errRateMilli)
    (rate : worse.errRateMilli.toNat ≤ 1000) (rtt : better.rttEmaUs ≤ worse.rttEmaUs) :
    scoreFrom slow worse ≤ scoreFrom fast better := by
  have hthroughput : throughputOf slow ≤ throughputOf fast :=
    min_le_min_right _ (Int.ofNat_le.mpr (UInt64.le_iff_toNat_le.mp throughput))
  have herrors : better.errRateMilli.toNat ≤ worse.errRateMilli.toNat :=
    UInt16.le_iff_toNat_le.mp errors
  have hproduct : throughputOf slow * (1000 - worse.errRateMilli.toNat) ≤
      throughputOf fast * (1000 - better.errRateMilli.toNat) :=
    Int.mul_le_mul hthroughput (by omega) (by omega) (throughputOf_nonneg fast)
  have hbase : baseOf slow worse.errRateMilli ≤ baseOf fast better.errRateMilli :=
    Int.tdiv_le_tdiv (by decide) (saturateI64_mono hproduct)
  have hdelay : (better.rttEmaUs.toNat : Int).tdiv 10 ≤ (worse.rttEmaUs.toNat : Int).tdiv 10 :=
    Int.tdiv_le_tdiv (by decide) (Int.ofNat_le.mpr (UInt32.le_iff_toNat_le.mp rtt))
  rw [scoreFrom_eq, scoreFrom_eq]
  exact saturateI64_mono (Int.sub_le_sub hbase hdelay)

/-! ## Any sequence of records -/

/-- What is recorded on a link. -/
inductive LinkRecord
  | rtt (now : Instant) (rttUs : UInt32)
  | success (now : Instant)
  | error
  deriving DecidableEq, Repr

namespace Link

def record (link : Link) : LinkRecord → Link
  | .rtt now rttUs => link.recordRtt now rttUs
  | .success now => link.recordSuccess now
  | .error => link.recordError

end Link

/-- One step of the error average never leaves the range. -/
theorem emaErr_le (prev sample : UInt16) : (emaErr prev sample).toNat ≤ 1000 := by
  rw [emaErr, UInt16.toNat_ofNat']
  omega

/-- After any step the error average is a rate. -/
theorem rate_record (link : Link) (record : LinkRecord) :
    (link.record record).health.errRateMilli.toNat ≤ 1000 := by
  cases record <;> exact emaErr_le _ _

/-- So it is after any sequence of steps, and on a new link. -/
theorem rate_records (id : String) (conn : ConnId) (kind : TransportKind)
    (caps : TransportCapabilities) (createdAt : Instant) (records : List LinkRecord) :
    (records.foldl Link.record (.new id conn kind caps createdAt)).health.errRateMilli.toNat ≤
      1000 := by
  rcases List.eq_nil_or_concat records with rfl | ⟨earlier, last, rfl⟩
  · exact Nat.zero_le 1000
  · rw [List.concat_eq_append, List.foldl_append]
    exact rate_record _ last

/-- Whatever was recorded on a link, its error average is between 0 and 1000 thousandths.
With any throughput and any round trip no operation of its score overflows, and the last
one does not even saturate. And more throughput, fewer errors or a shorter round trip
alone score no lower. -/
theorem score_of_records (id : String) (conn : ConnId) (kind : TransportKind)
    (caps : TransportCapabilities) (createdAt : Instant) (records : List LinkRecord) :
    let health := (records.foldl Link.record (.new id conn kind caps createdAt)).health
    (health.errRateMilli.toNat ≤ 1000 ∧ 0 ≤ 1000 - (health.errRateMilli.toNat : Int)) ∧
    (∀ throughput rtt, scoreChecked ⟨throughput⟩ { health with rttEmaUs := rtt } =
        some (scoreFrom ⟨throughput⟩ { health with rttEmaUs := rtt }) ∧
      scoreFrom ⟨throughput⟩ { health with rttEmaUs := rtt } =
        baseOf ⟨throughput⟩ health.errRateMilli - (rtt.toNat : Int).tdiv 10) ∧
    (∀ slow fast rtt, slow ≤ fast →
      scoreFrom ⟨slow⟩ { health with rttEmaUs := rtt } ≤
        scoreFrom ⟨fast⟩ { health with rttEmaUs := rtt }) ∧
    (∀ throughput fewer more rtt, fewer ≤ more → more ≤ 1000 →
      scoreFrom ⟨throughput⟩ { health with rttEmaUs := rtt, errRateMilli := more } ≤
        scoreFrom ⟨throughput⟩ { health with rttEmaUs := rtt, errRateMilli := fewer }) ∧
    ∀ throughput shorter longer, shorter ≤ longer →
      scoreFrom ⟨throughput⟩ { health with rttEmaUs := longer } ≤
        scoreFrom ⟨throughput⟩ { health with rttEmaUs := shorter } := by
  intro health
  have hrate : health.errRateMilli.toNat ≤ 1000 :=
    rate_records id conn kind caps createdAt records
  refine ⟨⟨hrate, by omega⟩, ?_, ?_, ?_, ?_⟩
  · intro throughput rtt
    exact ⟨scoreChecked_eq _ _ hrate, scoreFrom_eq_sub _ _ hrate⟩
  · intro slow fast rtt hthroughput
    exact scoreFrom_mono hthroughput (UInt16.le_refl _) hrate (UInt32.le_refl _)
  · intro throughput fewer more rtt herrors hmore
    exact scoreFrom_mono (UInt64.le_refl _) herrors (UInt16.le_iff_toNat_le.mp hmore)
      (UInt32.le_refl _)
  · intro throughput shorter longer hrtt
    exact scoreFrom_mono (UInt64.le_refl _) (UInt16.le_refl _) hrate hrtt

end Mlink.Core
