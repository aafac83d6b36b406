/-
# Parameters of the rate limiters

A rate limit is given on the command line as a burst and a number of seconds with a
slash between them.  The limiter is built with the burst and with the period after
which one request is allowed again, the seconds divided by the burst.

The text is checked, the period is not.  A burst of more than two thousand millions
for each second leaves less than half a nanosecond, the period is rounded to zero and
the builder of the limiter refuses it, which the server takes for impossible.

Nor is the window bounded: the limiter counts nanoseconds in 64 bits, about 584 years,
and building one whose burst takes longer to come back panics.

The quotient is a parameter.  It may be the exact one, or the one the server computes
in doubles; these also lose the difference between the largest numbers of seconds and
`2 ^ 64`, which is no duration.
-/

import GitEventsRunner.Lib.Numbers
import GitEventsRunner.Web.RateLimit

namespace GitEventsRunner.Web

open GitEventsRunner.Lib

/-- `RequestsRateLimitParams` -/
structure RequestsRateLimitParams where
  burst : ℕ
  period : Duration
  deriving DecidableEq, Repr

/-- The error of a rate limit that cannot be read. -/
inductive RateLimitError
  | invalidRequestRateLimit (value : String)
  deriving DecidableEq, Repr

/-- How seconds are divided by a burst. -/
abbrev Quotient := ℕ → ℕ → ℚ

/-- The quotient itself. -/
def exactQuotient : Quotient := fun secs burst => secs / burst

/-- `period as f64 / burst as f64` -/
def doubleQuotient : Quotient := fun secs burst =>
  Float64.round (Float64.round secs / Float64.round burst)

namespace RequestsRateLimitParams

/-- `RequestsRateLimitParams::try_from`; `none` is the panic of `from_secs_f64`. -/
def tryFrom (quotient : Quotient) (value : String) :
    Option (Except RateLimitError RequestsRateLimitParams) :=
  match (Path.segments value).map String.ofList with
  | [first, second] =>
      match parseUnsigned 32 first, parseUnsigned 64 second with
      | some burst, some period =>
          if burst = 0 ∨ period = 0 then some (.error (.invalidRequestRateLimit value))
          else (Duration.fromSecsF64 (quotient period burst)).map fun period =>
            .ok ⟨burst, period⟩
      | _, _ => some (.error (.invalidRequestRateLimit value))
  | _ => some (.error (.invalidRequestRateLimit value))

/-- A text of two parts around its only slash, a burst of 32 bits and a number of
seconds of 64 bits, neither of them zero. -/
def Describes (value : String) (burst secs : ℕ) : Prop :=
  ∃ first second : String, value = first ++ "/" ++ second ∧ '/' ∉ first.toList ∧
    '/' ∉ second.toList ∧ parseUnsigned 32 first = some burst ∧
    parseUnsigned 64 second = some secs ∧ burst ≠ 0 ∧ secs ≠ 0

/-- What is described is read. -/
theorem tryFrom_of_describes (quotient : Quotient) {value : String} {burst secs : ℕ}
    (h : Describes value burst secs) : tryFrom quotient value =
      (Duration.fromSecsF64 (quotient secs burst)).map fun period => .ok ⟨burst, period⟩ := by
  obtain ⟨first, second, rfl, hfirst, hsecond, hburst, hsecs, hburst0, hsecs0⟩ := h
  have hsegments :
      (Path.segments (first ++ "/" ++ second)).map String.ofList = [first, second] := by
    rw [Path.segments_append, Path.segments, Path.segments, List.splitOn_eq_singleton hfirst,
      List.splitOn_eq_singleton hsecond]
    simp
  rw [tryFrom, hsegments]
  simp only [hburst, hsecs, if_neg (not_or.mpr ⟨hburst0, hsecs0⟩)]

/-- Two parts around the only slash of a text. -/
theorem eq_of_splitted {value first second : String}
    (h : (Path.segments value).map String.ofList = [first, second]) :
    value = first ++ "/" ++ second ∧ '/' ∉ first.toList ∧ '/' ∉ second.toList := by
  obtain ⟨a, rest, hsegments, rfl, hrest⟩ := List.map_eq_cons_iff.mp h
  obtain ⟨b, rfl, rfl⟩ := List.map_eq_singleton_iff.mp hrest
  have ha : a ∈ Path.segments value := by simp [hsegments]
  have hb : b ∈ Path.segments value := by simp [hsegments]
  rw [String.toList_ofList, String.toList_ofList]
  exact ⟨Path.eq_of_segments_eq_pair hsegments, Path.slash_notMem_of_mem_segments ha,
    Path.slash_notMem_of_mem_segments hb⟩

/-- What is not is an error that names the text. -/
theorem tryFrom_of_not_describes (quotient : Quotient) {value : String}
    (h : ∀ burst secs, ¬ Describes value burst secs) :
    tryFrom quotient value = some (.error (.invalidRequestRateLimit value)) := by
  rw [tryFrom]
  split
  · next first second hsplitted =>
      split
      · next burst secs hburst hsecs =>
          split
          · rfl
          · next hne =>
              obtain ⟨hvalue, hfirst, hsecond⟩ := eq_of_splitted hsplitted
              obtain ⟨hburst0, hsecs0⟩ := not_or.mp hne
              exfalso
              exact h burst secs
                ⟨first, second, hvalue, hfirst, hsecond, hburst, hsecs, hburst0, hsecs0⟩
      · rfl
  · rfl

end RequestsRateLimitParams

/-! ## Limiters -/

/-- The nanoseconds a limiter can count: those of a 64-bit number. -/
def limiterNanos : ℕ := 2 ^ 64

/-- The builder of rate limiters.  It refuses a burst or a period of zero, and panics
if a whole burst of periods is more than the limiter can count; `finish` is `none` for
both. -/
structure GovernorConfigBuilder (Config : Type) where
  finish : RequestsRateLimiter → ℕ → Duration → Option Config
  finish_isSome : ∀ limiter burst period, (finish limiter burst period).isSome ↔
    burst ≠ 0 ∧ period ≠ 0 ∧ burst * period < limiterNanos

/-- `RequestsRateLimiter::add_rrl_layer` on the layers of a router; `none` is the
panic of `finish` or of its unwrapped result. -/
def RequestsRateLimiter.addRrlLayer {Config : Type} (builder : GovernorConfigBuilder Config)
    (limiter : RequestsRateLimiter) (burst : ℕ) (period : Duration) (layers : List Config) :
    Option (List Config) :=
  (builder.finish limiter burst period).map (· :: layers)

namespace RequestsRateLimitParams

variable {Config : Type}

/-- A text is read without a panic, it is accepted exactly if it describes a rate,
and what is accepted has a period and makes a limiter. -/
structure Served (quotient : Quotient) (builder : GovernorConfigBuilder Config) (value : String) :
    Prop where
  returns : (tryFrom quotient value).isSome
  accepted : (∃ params, tryFrom quotient value = some (.ok params)) ↔
    ∃ burst secs, Describes value burst secs
  period : ∀ params, tryFrom quotient value = some (.ok params) → params.period ≠ 0
  builds : ∀ params, tryFrom quotient value = some (.ok params) → ∀ limiter layers,
    (RequestsRateLimiter.addRrlLayer builder limiter params.burst params.period layers).isSome

/-- What describes no rate is refused, which is all that is asked for. -/
theorem served_of_not_describes (quotient : Quotient) (builder : GovernorConfigBuilder Config)
    {value : String} (h : ∀ burst secs, ¬ Describes value burst secs) :
    Served quotient builder value := by
  have hread := tryFrom_of_not_describes quotient h
  have hnever : ∀ params, tryFrom quotient value ≠ some (.ok params) := by
    rw [hread]
    intro params hok
    cases hok
  constructor
  · rw [hread]
    rfl
  · apply iff_of_false
    · rintro ⟨params, hok⟩
      exact hnever params hok
    · rintro ⟨burst, secs, hdescribes⟩
      exact h burst secs hdescribes
  · intro params hok
    exact absurd hok (hnever params)
  · intro params hok
    exact absurd hok (hnever params)

/-- A rate with a period other than zero that the limiter can count is served. -/
theorem served_of_describes (quotient : Quotient) (builder : GovernorConfigBuilder Config)
    {value : String} {burst secs : ℕ} {period : Duration} (h : Describes value burst secs)
    (hquotient : Duration.fromSecsF64 (quotient secs burst) = some period) (hperiod : period ≠ 0)
    (hcounted : burst * period < limiterNanos) : Served quotient builder value := by
  have hread : tryFrom quotient value = some (.ok ⟨burst, period⟩) := by
    rw [tryFrom_of_describes quotient h, hquotient]
    rfl
  have hparams : ∀ params, tryFrom quotient value = some (.ok params) →
      params = ⟨burst, period⟩ := by
    intro params hok
    rw [hread] at hok
    exact (Except.ok.inj (Option.some.inj hok)).symm
  constructor
  · rw [hread]
    rfl
  · exact iff_of_true ⟨_, hread⟩ ⟨burst, secs, h⟩
  · intro params hok
    rw [hparams params hok]
    exact hperiod
  · intro params hok limiter layers
    obtain ⟨first, second, -, -, -, -, -, hburst, -⟩ := h
    rw [hparams params hok, RequestsRateLimiter.addRrlLayer, Option.isSome_map]
    exact (builder.finish_isSome limiter burst period).mpr ⟨hburst, hperiod, hcounted⟩

/-- All of it comes down to the quotient: it has to be a duration other than zero, and a
burst of it has to be counted. -/
theorem served_iff (quotient : Quotient) (builder : GovernorConfigBuilder Config)
    (value : String) : Served quotient builder value ↔ ∀ burst secs, Describes value burst secs →
      (∃ period, Duration.fromSecsF64 (quotient secs burst) = some period ∧ period ≠ 0) ∧
        burst * Duration.nearestNanos (quotient secs burst) < limiterNanos := by
  constructor
  · intro h burst secs hdescribes
    obtain ⟨params, hparams⟩ := h.accepted.mpr ⟨burst, secs, hdescribes⟩
    have hperiod := h.period params hparams
    have hbuilds := h.builds params hparams .global []
    rw [tryFrom_of_describes quotient hdescribes] at hparams
    obtain ⟨period, hquotient, hok⟩ := Option.map_eq_some_iff.mp hparams
    obtain rfl := Except.ok.inj hok
    rw [RequestsRateLimiter.addRrlLayer, Option.isSome_map, builder.finish_isSome] at hbuilds
    rw [Duration.fromSecsF64_eq_some hquotient]
    exact ⟨⟨period, hquotient, hperiod⟩, hbuilds.2.2⟩
  · intro h
    by_cases hdescribes : ∃ burst secs, Describes value burst secs
    · obtain ⟨burst, secs, hvalue⟩ := hdescribes
      obtain ⟨⟨period, hquotient, hperiod⟩, hcounted⟩ := h burst secs hvalue
      rw [Duration.fromSecsF64_eq_some hquotient] at hcounted
      exact served_of_describes quotient builder hvalue hquotient hperiod hcounted
    · apply served_of_not_describes
      intro burst secs hvalue
      exact hdescribes ⟨burst, secs, hvalue⟩

end RequestsRateLimitParams

/-! ## Quotients -/

section Quotients

variable {burst secs : ℕ}

/-- The exact quotient always fits. -/
theorem exactQuotient_fits_iff (hburst : 0 < burst) (hsecs : secs < 2 ^ 64) :
    (exactQuotient secs burst < 2 ^ 64 ∧ 1 / (2 * nanosPerSec) < exactQuotient secs burst) ↔
      burst < 2 * nanosPerSec * secs := by
  have hpos : (0 : ℚ) < burst := Nat.cast_pos.mpr hburst
  have hone : (1 : ℚ) ≤ burst := Nat.one_le_cast.mpr hburst
  have hnanos : (0 : ℚ) < 2 * nanosPerSec := by norm_num [nanosPerSec]
  have hfits : exactQuotient secs burst < 2 ^ 64 := by
    rw [exactQuotient, div_lt_iff₀ hpos]
    calc (secs : ℚ) < 2 ^ 64 := by exact_mod_cast hsecs
      _ ≤ 2 ^ 64 * burst := le_mul_of_one_le_right (by positivity) hone
  rw [exactQuotient, lt_div_iff₀ hpos, one_div, inv_mul_lt_iff₀ hnanos]
  constructor
  · rintro ⟨-, hlt⟩
    exact_mod_cast hlt
  · intro hlt
    exact ⟨hfits, by exact_mod_cast hlt⟩

/-- The double next to half a nanosecond is above it. -/
theorem round_half_nano : (1 : ℚ) / (2 * nanosPerSec) < Float64.round (1 / (2 * nanosPerSec)) := by
  rw [Float64.round_eq (-31) (by norm_num [nanosPerSec]) (by norm_num [nanosPerSec])]
  decide +kernel

theorem round_below_half_nano :
    Float64.round (2 / (4 * nanosPerSec + 1)) < 1 / (2 * nanosPerSec) := by
  rw [Float64.round_eq (-31) (by norm_num [nanosPerSec]) (by norm_num [nanosPerSec])]
  decide +kernel

theorem round_top : Float64.round ((2 ^ 64 - 1024 : ℕ) : ℚ) = 2 ^ 64 := by
  rw [Float64.round_eq 63 (by norm_num) (by norm_num)]
  decide +kernel

theorem round_below_top : Float64.round ((2 ^ 64 - 1025 : ℕ) : ℚ) = 2 ^ 64 - 2 ^ 11 := by
  rw [Float64.round_eq 63 (by norm_num) (by norm_num)]
  decide +kernel

/-- A burst is a double already. -/
theorem doubleQuotient_eq (hburst : 0 < burst) (hbits : burst < 2 ^ 32) :
    doubleQuotient secs burst = Float64.round (Float64.round secs / burst) := by
  have hexact : Float64.round burst = burst :=
    Float64.round_natCast hburst (hbits.trans (by norm_num))
  rw [doubleQuotient, hexact]

/-- The largest numbers of seconds are rounded to `2 ^ 64`; only a burst of one
leaves them as they are. -/
theorem doubleQuotient_lt_iff (hburst : 0 < burst) (hbits : burst < 2 ^ 32) (hpos : 0 < secs)
    (hsecs : secs < 2 ^ 64) :
    doubleQuotient secs burst < 2 ^ 64 ↔ (burst = 1 → secs + 1024 < 2 ^ 64) := by
  have hround : 0 < Float64.round secs := Float64.round_pos (Nat.cast_pos.mpr hpos)
  rw [doubleQuotient_eq hburst hbits]
  rcases (show 1 ≤ burst from hburst).eq_or_lt with rfl | htwo
  · rw [Nat.cast_one, div_one, imp_iff_right rfl]
    constructor
    · intro hlt
      by_contra hle
      have hle : (2 ^ 64 - 1024 : ℕ) ≤ secs := by omega
      have htop : (2 ^ 64 : ℚ) ≤ Float64.round secs := by
        rw [← round_top]
        exact Float64.round_mono (by norm_num) (Nat.cast_le.mpr hle)
      have hagain := Float64.round_mono (by positivity) htop
      rw [Float64.round_two_pow] at hagain
      exact absurd hlt hagain.not_gt
    · intro hlt
      have hle : secs ≤ (2 ^ 64 - 1025 : ℕ) := by omega
      have hbelow : Float64.round secs ≤ 2 ^ 64 - 2 ^ 11 := by
        rw [← round_below_top]
        exact Float64.round_mono (Nat.cast_pos.mpr hpos) (Nat.cast_le.mpr hle)
      have hexact : Float64.round (2 ^ 64 - 2 ^ 11) = 2 ^ 64 - 2 ^ 11 := by
        apply Float64.round_of_significand (m := 2 ^ 53 - 1) (k := 11) (by norm_num) (by norm_num)
        norm_num
      calc Float64.round (Float64.round secs) ≤ Float64.round (2 ^ 64 - 2 ^ 11) :=
            Float64.round_mono hround hbelow
        _ = 2 ^ 64 - 2 ^ 11 := hexact
        _ < 2 ^ 64 := by norm_num
  · have hle : Float64.round secs ≤ 2 ^ 64 := by
      rw [← Float64.round_two_pow 64]
      exact Float64.round_mono (Nat.cast_pos.mpr hpos) (by exact_mod_cast hsecs.le)
    have hhalf : Float64.round secs / burst ≤ 2 ^ 63 := by
      rw [div_le_iff₀ (Nat.cast_pos.mpr hburst)]
      calc Float64.round secs ≤ 2 ^ 63 * 2 := by linarith
        _ ≤ 2 ^ 63 * burst := by gcongr; exact_mod_cast htwo
    apply iff_of_true
    · calc Float64.round (Float64.round secs / burst) ≤ Float64.round (2 ^ 63) :=
            Float64.round_mono (div_pos hround (Nat.cast_pos.mpr hburst)) hhalf
        _ = 2 ^ 63 := Float64.round_two_pow 63
        _ < 2 ^ 64 := by norm_num
    · intro hone
      omega

/-- More than half a nanosecond is left, up to the burst for which the exact quotient
is just that. -/
theorem lt_doubleQuotient_iff (hburst : 0 < burst) (hbits : burst < 2 ^ 32) (hpos : 0 < secs) :
    1 / (2 * nanosPerSec) < doubleQuotient secs burst ↔ burst ≤ 2 * nanosPerSec * secs := by
  have hcast : (0 : ℚ) < burst := Nat.cast_pos.mpr hburst
  have hnanos : (0 : ℚ) < 2 * nanosPerSec := by norm_num [nanosPerSec]
  rw [doubleQuotient_eq hburst hbits]
  constructor
  · contrapose!
    intro hlt
    have hsecs : secs ≤ 2 := by
      simp only [nanosPerSec] at hlt
      omega
    have hexact : Float64.round secs = secs :=
      Float64.round_natCast hpos (hsecs.trans_lt (by norm_num))
    have hquotient : (secs : ℚ) / burst ≤ 2 / (4 * nanosPerSec + 1) := by
      rw [div_le_div_iff₀ hcast (by positivity)]
      have hnat : secs * (4 * nanosPerSec + 1) ≤ 2 * burst := by
        simp only [nanosPerSec] at hlt ⊢
        omega
      exact_mod_cast hnat
    rw [hexact]
    calc Float64.round (secs / burst) ≤ Float64.round (2 / (4 * nanosPerSec + 1)) :=
          Float64.round_mono (div_pos (Nat.cast_pos.mpr hpos) hcast) hquotient
      _ ≤ 1 / (2 * nanosPerSec) := round_below_half_nano.le
  · intro hle
    have hquotient : 1 / (2 * nanosPerSec) ≤ Float64.round secs / burst := by
      rw [le_div_iff₀ hcast, one_div, inv_mul_le_iff₀ hnanos]
      rcases lt_or_ge secs (2 ^ 53) with hsmall | hlarge
      · rw [Float64.round_natCast hpos hsmall]
        exact_mod_cast hle
      · -- the number of seconds is rounded, but to no less than `2 ^ 53`
        have hround : (2 ^ 53 : ℚ) ≤ Float64.round secs := by
          rw [← Float64.round_two_pow 53]
          exact Float64.round_mono (by positivity) (by exact_mod_cast hlarge)
        calc (burst : ℚ) ≤ 2 ^ 32 := by exact_mod_cast hbits.le
          _ ≤ 2 * nanosPerSec * 2 ^ 53 := by norm_num [nanosPerSec]
          _ ≤ 2 * nanosPerSec * Float64.round secs := by gcongr
    calc 1 / (2 * nanosPerSec) < Float64.round (1 / (2 * nanosPerSec)) := round_half_nano
      _ ≤ Float64.round (Float64.round secs / burst) :=
          Float64.round_mono (one_div_pos.mpr hnanos) hquotient

theorem doubleQuotient_pos (hburst : 0 < burst) (hpos : 0 < secs) :
    0 < doubleQuotient secs burst := by
  apply Float64.round_pos
  apply div_pos
  · exact Float64.round_pos (Nat.cast_pos.mpr hpos)
  · exact Float64.round_pos (Nat.cast_pos.mpr hburst)

end Quotients

/-! ## Which rates are served -/

namespace RequestsRateLimitParams

variable {Config : Type}

theorem Describes.bounds {value : String} {burst secs : ℕ} (h : Describes value burst secs) :
    (0 < burst ∧ burst < 2 ^ 32) ∧ 0 < secs ∧ secs < 2 ^ 64 := by
  obtain ⟨first, second, -, -, -, hburst, hsecs, hburst0, hsecs0⟩ := h
  exact ⟨⟨Nat.pos_of_ne_zero hburst0, lt_of_parseUnsigned hburst⟩,
    Nat.pos_of_ne_zero hsecs0, lt_of_parseUnsigned hsecs⟩

/-- Read in doubles, a text makes `from_secs_f64` panic exactly if it describes a burst of
one in seconds that are rounded to `2 ^ 64`. -/
theorem tryFrom_isSome_iff (value : String) :
    (tryFrom doubleQuotient value).isSome ↔ ∀ burst secs, Describes value burst secs →
      burst = 1 → secs + 1024 < 2 ^ 64 := by
  have hreads : ∀ burst secs, Describes value burst secs →
      ((tryFrom doubleQuotient value).isSome ↔ (burst = 1 → secs + 1024 < 2 ^ 64)) := by
    intro burst secs hdescribes
    obtain ⟨⟨hburst, hbits⟩, hpos, hsecs⟩ := hdescribes.bounds
    rw [tryFrom_of_describes doubleQuotient hdescribes, Option.isSome_map,
      ← doubleQuotient_lt_iff hburst hbits hpos hsecs]
    exact Option.isSome_ite
  by_cases hdescribes : ∃ burst secs, Describes value burst secs
  · obtain ⟨burst, secs, hvalue⟩ := hdescribes
    constructor
    · intro h other secs' hother
      exact (hreads other secs' hother).mp h
    · intro h
      exact (hreads burst secs hvalue).mpr (h burst secs hvalue)
  · simp only [not_exists] at hdescribes
    rw [tryFrom_of_not_describes doubleQuotient hdescribes]
    exact iff_of_true rfl fun burst secs hvalue => absurd hvalue (hdescribes burst secs)

/-- A rate is served exactly if the burst is less than two thousand millions for each
second, and the whole window, a burst of periods, is one the limiter can count; computed
in doubles, also if the burst is just that many. -/
theorem served_iff_burst_le (builder : GovernorConfigBuilder Config) (value : String) :
    (Served exactQuotient builder value ↔ ∀ burst secs, Describes value burst secs →
      burst < 2 * nanosPerSec * secs ∧
        burst * Duration.nearestNanos (exactQuotient secs burst) < limiterNanos) ∧
    (Served doubleQuotient builder value ↔ ∀ burst secs, Describes value burst secs →
      burst ≤ 2 * nanosPerSec * secs ∧
        burst * Duration.nearestNanos (doubleQuotient secs burst) < limiterNanos) := by
  rw [served_iff, served_iff]
  constructor
  · apply forall₃_congr
    intro burst secs hdescribes
    obtain ⟨⟨hburst, -⟩, -, hsecs⟩ := hdescribes.bounds
    have hnonneg : 0 ≤ exactQuotient secs burst :=
      div_nonneg (Nat.cast_nonneg secs) (Nat.cast_nonneg burst)
    rw [Duration.fromSecsF64_pos_iff hnonneg, exactQuotient_fits_iff hburst hsecs]
  · apply forall₃_congr
    intro burst secs hdescribes
    obtain ⟨⟨hburst, hbits⟩, hpos, -⟩ := hdescribes.bounds
    rw [Duration.fromSecsF64_pos_iff (doubleQuotient_pos hburst hpos).le,
      lt_doubleQuotient_iff hburst hbits hpos]
    constructor
    · rintro ⟨⟨-, hle⟩, hcounted⟩
      exact ⟨hle, hcounted⟩
    · rintro ⟨hle, hcounted⟩
      -- a window that the limiter can count is short enough for a duration
      have hshort : Duration.nearestNanos (doubleQuotient secs burst) < 2 ^ 64 * nanosPerSec :=
        calc Duration.nearestNanos (doubleQuotient secs burst)
          _ ≤ burst * Duration.nearestNanos (doubleQuotient secs burst) :=
              Nat.le_mul_of_pos_left _ hburst
          _ < limiterNanos := hcounted
          _ ≤ 2 ^ 64 * nanosPerSec := by decide
      exact ⟨⟨by exact_mod_cast Duration.lt_of_nearestNanos_lt hshort, hle⟩, hcounted⟩

/-- A builder that keeps the burst and the period. -/
def plainBuilder : GovernorConfigBuilder (ℕ × Duration) where
  finish _ burst period :=
    if burst ≠ 0 ∧ period ≠ 0 ∧ burst * period < limiterNanos then some (burst, period) else none
  finish_isSome _ _ _ := Option.isSome_ite

/-- The largest burst in one second has the period zero, whether or not it is computed in
doubles, and a burst of one in 18446744074 seconds is more than the limiter can count. -/
theorem not_served_largest_burst :
    tryFrom exactQuotient "4294967295/1" = some (.ok ⟨4294967295, 0⟩) ∧
      ¬ Served exactQuotient plainBuilder "4294967295/1" ∧
      ¬ Served doubleQuotient plainBuilder "4294967295/1" ∧
      ¬ Served exactQuotient plainBuilder "1/18446744074" := by
  have hdescribes : Describes "4294967295/1" 4294967295 1 :=
    ⟨"4294967295", "1", rfl, by decide, by decide, by decide, by decide, by decide, by decide⟩
  have hlong : Describes "1/18446744074" 1 18446744074 :=
    ⟨"1", "18446744074", rfl, by decide, by decide, by decide, by decide, by decide, by decide⟩
  have hfew : ¬ (4294967295 ≤ 2 * nanosPerSec * 1) := by decide
  refine ⟨by decide +kernel, ?_, ?_, ?_⟩
  · rw [served_iff]
    intro h
    have hperiod := (h _ _ hdescribes).1
    rw [Duration.fromSecsF64_pos_iff (by decide +kernel),
      exactQuotient_fits_iff (by decide) (by decide)] at hperiod
    exact hfew hperiod.le
  · rw [served_iff]
    intro h
    have hperiod := (h _ _ hdescribes).1
    rw [Duration.fromSecsF64_pos_iff (doubleQuotient_pos (by decide) (by decide)).le] at hperiod
    exact hfew ((lt_doubleQuotient_iff (by decide) (by decide) (by decide)).mp hperiod.2)
  · rw [served_iff]
    intro h
    have hcounted := (h _ _ hlong).2
    revert hcounted
    decide +kernel

end RequestsRateLimitParams

end GitEventsRunner.Web
