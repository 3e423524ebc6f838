import StrandFirmware.Motion
import StrandFirmware.Library.FloatValue

/-!
# The delay of a wave

A wave starts at an origin and runs outwards: each device waits before it moves, in proportion to
its distance from the origin.  `deviceDistanceSpeed` computes the delay in milliseconds, and
`pdMS_TO_TICKS` multiplies it by the tick rate in 32 bits before it divides by 1000.

A delay of 4294968 milliseconds or more does not survive that product.  So the order of the devices
is the order of their distances for every wave that is fast enough to keep all delays below that
(`reachesInOrder_iff`); for a slower wave it depends on what the product loses of each delay.
-/

namespace Strand

open Rounding

/-! ## The functions of the code -/

/-- `pdMS_TO_TICKS(ms)` with 1000 ticks per second. -/
def pdMsToTicks (ms : ℤ) : ℤ := ms * 1000 % 2 ^ 32 / 1000

/-- The distance of the device from the origin in `deviceDistanceSpeed`.  The differences are
`int`s; the rest is read exactly, without the `float` root and without the conversion to `int` for
`abs`, which a distance of 2^31 or more would not survive. -/
def deviceDistance (deviceLocation : Location) (x y z : ℤ) : ℕ :=
  let xSquare := wrap32 (deviceLocation.x - x)
  let ySquare := wrap32 (deviceLocation.y - y)
  let zSquare := wrap32 (deviceLocation.z - z)
  Nat.sqrt (xSquare ^ 2 + ySquare ^ 2 + zSquare ^ 2).toNat

/-- `distance / speed` for `speed = s / 100.0`. -/
def distanceFromStart (distance : ℕ) (s : ℤ) : FloatValue :=
  (FloatValue.ofInt distance).div ((FloatValue.ofInt s).div (FloatValue.ofInt 100))

/-- `deviceDistanceSpeed(x, y, z, s)`: the delay in milliseconds. -/
def deviceDistanceSpeed (platform : FloatValue → ℤ) (deviceLocation : Location) (x y z s : ℤ) : ℤ :=
  (distanceFromStart (deviceDistance deviceLocation x y z) s).toInt platform

/-- The ticks that `wave_task` waits for a wave, and `sine_wave_task` for a sine wave, with this
origin and speed. -/
def waitTicks (platform : FloatValue → ℤ) (deviceLocation : Location) (x y z s : ℤ) : ℤ :=
  pdMsToTicks (deviceDistanceSpeed platform deviceLocation x y z s)

/-! ## Distances and delays -/

namespace Location

/-- The coordinates are `int`s. -/
def InRange (l : Location) : Prop := IsInt32 l.x ∧ IsInt32 l.y ∧ IsInt32 l.z

/-- The coordinate differences to the origin are `int`s. -/
def Near (l origin : Location) : Prop :=
  IsInt32 (l.x - origin.x) ∧ IsInt32 (l.y - origin.y) ∧ IsInt32 (l.z - origin.z)

/-- The square of the distance from the origin. -/
def squaredDistance (l origin : Location) : ℤ :=
  (l.x - origin.x) ^ 2 + (l.y - origin.y) ^ 2 + (l.z - origin.z) ^ 2

end Location

/-- The delay in milliseconds, over integers: the distance at `s / 100` per millisecond. -/
def delayMs (l origin : Location) (s : ℤ) : ℤ :=
  100 * (Nat.sqrt (l.squaredDistance origin).toNat : ℤ) / s

/-- What the product of `pdMS_TO_TICKS` takes off a delay by wrapping around. -/
def lostTicks (ms : ℤ) : ℤ := (2 ^ 32 * (ms * 1000 / 2 ^ 32) + 999) / 1000

/-- An `int` is not changed by wrapping around. -/
lemma wrap32_of_isInt32 {v : ℤ} (h : IsInt32 v) : wrap32 v = v := by
  obtain ⟨hlow, hhigh⟩ := h
  exact Int.bmod_eq_of_le (by omega) (by omega)

/-- The ticks of a delay. -/
lemma pdMsToTicks_eq (ms : ℤ) : pdMsToTicks ms = ms - lostTicks ms := by
  unfold pdMsToTicks lostTicks
  omega

/-- A delay below 4294968 milliseconds loses nothing. -/
lemma pdMsToTicks_of_lt {ms : ℤ} (h₀ : 0 ≤ ms) (h : ms < 4294968) : pdMsToTicks ms = ms := by
  unfold pdMsToTicks
  omega

section Delay

variable {l near far origin : Location} {s : ℤ}

/-- The distance is the integer square root where no difference overflows. -/
lemma deviceDistance_eq (h : l.Near origin) :
    deviceDistance l origin.x origin.y origin.z = Nat.sqrt (l.squaredDistance origin).toNat := by
  obtain ⟨hx, hy, hz⟩ := h
  simp only [deviceDistance, wrap32_of_isInt32 hx, wrap32_of_isInt32 hy, wrap32_of_isInt32 hz,
    Location.squaredDistance]

/-- The quotient for a positive speed. -/
lemma distanceFromStart_of_pos (distance : ℕ) (hs : 0 < s) :
    distanceFromStart distance s = .finite ((100 * distance : ℤ) / (s.toNat : ℕ) : ℚ) := by
  have hs' : (s : ℚ) ≠ 0 := Int.cast_ne_zero.mpr hs.ne'
  have hcast : ((s.toNat : ℕ) : ℚ) = s := by exact_mod_cast Int.toNat_of_nonneg hs.le
  have hspeed : (s : ℚ) / 100 ≠ 0 := div_ne_zero hs' (by norm_num)
  simp only [distanceFromStart, FloatValue.ofInt, FloatValue.div, Int.cast_ofNat, ne_eq,
    OfNat.ofNat_ne_zero, not_false_eq_true, if_true, hspeed, hcast, Int.cast_natCast]
  congr 1
  push_cast
  field_simp

/-- A delay that fits into an `int` is what the code computes. -/
lemma deviceDistanceSpeed_eq (platform : FloatValue → ℤ) (hs : 0 < s) (hnear : l.Near origin)
    (hfit : delayMs l origin s < 2 ^ 31) :
    deviceDistanceSpeed platform l origin.x origin.y origin.z s = delayMs l origin s := by
  unfold deviceDistanceSpeed
  rw [deviceDistance_eq hnear, distanceFromStart_of_pos _ hs]
  unfold delayMs at hfit ⊢
  generalize Nat.sqrt (l.squaredDistance origin).toNat = d at hfit ⊢
  have hnonneg : (0 : ℤ) ≤ 100 * (d : ℤ) := by positivity
  have htrunc : truncate ((100 * d : ℤ) / (s.toNat : ℕ) : ℚ) = 100 * (d : ℤ) / s := by
    rw [truncate_div, Int.toNat_of_nonneg hs.le, Int.tdiv_eq_ediv_of_nonneg hnonneg]
  have hfits : (FloatValue.finite ((100 * d : ℤ) / (s.toNat : ℕ) : ℚ)).FitsInt := by
    have := Int.ediv_nonneg hnonneg hs.le
    simp only [FloatValue.FitsInt, htrunc]
    omega
  rw [FloatValue.toInt_finite platform hfits, htrunc]

/-- A delay is not negative. -/
lemma delayMs_nonneg (l origin : Location) (hs : 0 < s) : 0 ≤ delayMs l origin s :=
  Int.ediv_nonneg (by positivity) hs.le

/-- The farther device has the longer delay. -/
lemma delayMs_mono (hs : 0 < s) (h : near.squaredDistance origin ≤ far.squaredDistance origin) :
    delayMs near origin s ≤ delayMs far origin s := by
  have hsqrt := Nat.sqrt_le_sqrt (Int.toNat_le_toNat h)
  exact Int.ediv_le_ediv hs (by exact_mod_cast Nat.mul_le_mul_left 100 hsqrt)

end Delay

/-! ## The order of the devices -/

/-- Of two devices the farther one does not wait less, and devices at equal distances wait equally
long. -/
def InOrder (platform : FloatValue → ℤ) (origin : Location) (s : ℤ) (near far : Location) : Prop :=
  let wait := fun l => waitTicks platform l origin.x origin.y origin.z s
  (near.squaredDistance origin ≤ far.squaredDistance origin → wait near ≤ wait far) ∧
    (near.squaredDistance origin = far.squaredDistance origin → wait near = wait far)

/-- Any two devices are in order. -/
def ReachesInOrder (platform : FloatValue → ℤ) (origin : Location) (s : ℤ) : Prop :=
  ∀ near far : Location, near.InRange → far.InRange → near.Near origin → far.Near origin →
    InOrder platform origin s near far

section Order

variable {platform : FloatValue → ℤ} {l near far origin : Location} {s : ℤ}

/-- The ticks of a delay that fits into an `int`. -/
lemma waitTicks_eq (platform : FloatValue → ℤ) (hs : 0 < s) (hnear : l.Near origin)
    (hfit : delayMs l origin s < 2 ^ 31) :
    waitTicks platform l origin.x origin.y origin.z s =
      delayMs l origin s - lostTicks (delayMs l origin s) := by
  rw [waitTicks, deviceDistanceSpeed_eq platform hs hnear hfit, pdMsToTicks_eq]

/-- A delay that loses nothing is the wait. -/
lemma waitTicks_of_lt (platform : FloatValue → ℤ) (hs : 0 < s) (hnear : l.Near origin)
    (hlt : delayMs l origin s < 4294968) :
    waitTicks platform l origin.x origin.y origin.z s = delayMs l origin s := by
  rw [waitTicks, deviceDistanceSpeed_eq platform hs hnear (by omega),
    pdMsToTicks_of_lt (delayMs_nonneg l origin hs) hlt]

/-- The wait depends on the distance alone. -/
lemma waitTicks_congr (hnear : near.Near origin) (hfar : far.Near origin)
    (h : near.squaredDistance origin = far.squaredDistance origin) :
    waitTicks platform near origin.x origin.y origin.z s =
      waitTicks platform far origin.x origin.y origin.z s := by
  rw [waitTicks, waitTicks, deviceDistanceSpeed, deviceDistanceSpeed, deviceDistance_eq hnear,
    deviceDistance_eq hfar, h]

/-- Two devices whose delays fit into an `int` are in order exactly when the delay of the farther
one is longer by what the product takes off it in addition. -/
lemma inOrder_iff (hs : 0 < s) (hnear : near.Near origin) (hfar : far.Near origin)
    (hle : near.squaredDistance origin ≤ far.squaredDistance origin)
    (hfit : delayMs far origin s < 2 ^ 31) :
    InOrder platform origin s near far ↔
      lostTicks (delayMs far origin s) - lostTicks (delayMs near origin s) ≤
        delayMs far origin s - delayMs near origin s := by
  have hmono := delayMs_mono hs hle
  have hwaitNear := waitTicks_eq platform hs hnear (lt_of_le_of_lt hmono hfit)
  have hwaitFar := waitTicks_eq platform hs hfar hfit
  unfold InOrder
  rw [and_iff_left (waitTicks_congr hnear hfar)]
  simp only [hle, forall_const, hwaitNear, hwaitFar]
  omega

/-- No device in range is farther than 3719550786. -/
lemma sqrt_squaredDistance_le (h : l.Near origin) :
    Nat.sqrt (l.squaredDistance origin).toNat ≤ 3719550786 := by
  have hsquare : ∀ {v : ℤ}, IsInt32 v → v ^ 2 ≤ (2 ^ 31) ^ 2 := by
    rintro v ⟨hlow, hhigh⟩
    exact sq_le_sq' hlow hhigh.le
  obtain ⟨hx, hy, hz⟩ := h
  have hbound : l.squaredDistance origin ≤ 3 * (2 ^ 31) ^ 2 := by
    unfold Location.squaredDistance
    linarith [hsquare hx, hsquare hy, hsquare hz]
  refine Nat.le_of_lt_succ (Nat.sqrt_lt.mpr ?_)
  omega

/-- A wave of speed 86603 or more has no delay that the product changes. -/
lemma delayMs_lt (hs : 86603 ≤ s) (h : l.Near origin) : delayMs l origin s < 4294968 := by
  have hsqrt : (Nat.sqrt (l.squaredDistance origin).toNat : ℤ) ≤ 3719550786 := by
    exact_mod_cast sqrt_squaredDistance_le h
  exact Int.ediv_lt_of_lt_mul (by omega) (by omega)

/-- A fast wave keeps the order. -/
lemma reachesInOrder_of_fast (hs : 86603 ≤ s) : ReachesInOrder platform origin s := by
  intro near far _ _ hnear hfar
  have hpos : 0 < s := by omega
  refine ⟨fun hle => ?_, waitTicks_congr hnear hfar⟩
  have hmono := delayMs_mono hpos hle
  have hlt := delayMs_lt hs hfar
  have hwaitNear := waitTicks_of_lt platform hpos hnear (lt_of_le_of_lt hmono hlt)
  have hwaitFar := waitTicks_of_lt platform hpos hfar hlt
  exact (hwaitNear.trans_le hmono).trans_eq hwaitFar.symm

end Order

/-! ### A slow wave -/

/-- The coordinate `t` away from `c`, on the side that is inside the range of `int`. -/
def away (c t : ℤ) : ℤ := if 0 ≤ c then c - t else c + t

section Slow

variable {platform : FloatValue → ℤ} {origin : Location} {s c t : ℤ}

/-- The coordinate is inside the range, and so is the difference. -/
lemma isInt32_away (hc : IsInt32 c) (h₀ : 0 ≤ t) (h : t < 2 ^ 31) :
    IsInt32 (away c t) ∧ IsInt32 (away c t - c) := by
  unfold IsInt32 at hc ⊢
  unfold away
  split <;> omega

/-- The difference is `t` up to its sign. -/
lemma away_sub_sq (c t : ℤ) : (away c t - c) ^ 2 = t ^ 2 := by
  unfold away
  split <;> ring

/-- A device in one direction from the origin. -/
def onAxis (origin : Location) (t : ℤ) : Location := ⟨away origin.x t, origin.y, origin.z⟩

/-- A device on a diagonal of the three directions. -/
def onDiagonal (origin : Location) (t : ℤ) : Location :=
  ⟨away origin.x t, away origin.y t, away origin.z t⟩

/-- A device in one direction from the origin is in range. -/
lemma inRange_onAxis (ho : origin.InRange) (h₀ : 0 ≤ t) (h : t < 2 ^ 31) :
    (onAxis origin t).InRange ∧ (onAxis origin t).Near origin ∧
      (onAxis origin t).squaredDistance origin = t ^ 2 := by
  obtain ⟨hx, hy, hz⟩ := ho
  obtain ⟨hx, hdx⟩ := isInt32_away hx h₀ h
  have hzero : ∀ v : ℤ, IsInt32 (v - v) := fun v => by simp [IsInt32]
  refine ⟨⟨hx, hy, hz⟩, ⟨hdx, hzero _, hzero _⟩, ?_⟩
  simp [onAxis, Location.squaredDistance, away_sub_sq]

/-- A device on a diagonal is in range. -/
lemma inRange_onDiagonal (ho : origin.InRange) (h₀ : 0 ≤ t) (h : t < 2 ^ 31) :
    (onDiagonal origin t).InRange ∧ (onDiagonal origin t).Near origin ∧
      (onDiagonal origin t).squaredDistance origin = 3 * t ^ 2 := by
  obtain ⟨hx, hy, hz⟩ := ho
  obtain ⟨hx, hdx⟩ := isInt32_away hx h₀ h
  obtain ⟨hy, hdy⟩ := isInt32_away hy h₀ h
  obtain ⟨hz, hdz⟩ := isInt32_away hz h₀ h
  refine ⟨⟨hx, hy, hz⟩, ⟨hdx, hdy, hdz⟩, ?_⟩
  simp only [onDiagonal, Location.squaredDistance, away_sub_sq]
  ring

/-- The bounds of an integer square root bound a delay. -/
lemma delayMs_mem {l : Location} {a b : ℕ} (hs : 0 < s)
    (ha : (a : ℤ) ^ 2 ≤ l.squaredDistance origin) (hb : l.squaredDistance origin ≤ (b : ℤ) ^ 2) :
    100 * (a : ℤ) / s ≤ delayMs l origin s ∧ delayMs l origin s ≤ 100 * (b : ℤ) / s := by
  have hlow : a ≤ Nat.sqrt (l.squaredDistance origin).toNat := by
    rw [Nat.le_sqrt']
    zify
    exact ha.trans (Int.self_le_toNat _)
  have hhigh : Nat.sqrt (l.squaredDistance origin).toNat ≤ b := by
    rw [← Nat.sqrt_eq' b]
    exact Nat.sqrt_le_sqrt (Int.toNat_le.mpr (by exact_mod_cast hb))
  constructor
  · exact Int.ediv_le_ediv hs (by exact_mod_cast Nat.mul_le_mul_left 100 hlow)
  · exact Int.ediv_le_ediv hs (by exact_mod_cast Nat.mul_le_mul_left 100 hhigh)

/-- A device on a diagonal whose delay is just too long for the product. -/
lemma delayMs_onDiagonal (ho : origin.InRange) (hs : 0 < s) (hslow : s ≤ 86602) :
    ∃ l : Location, l.InRange ∧ l.Near origin ∧ (22000 * s) ^ 2 ≤ l.squaredDistance origin ∧
      4294968 ≤ delayMs l origin s ∧ delayMs l origin s ≤ 4295500 := by
  let t : ℤ := 24797 * s + s / 50 + 2
  have hlow : 1239851 * s + 51 ≤ 50 * t := by omega
  have hhigh : t ≤ 24800 * s := by omega
  obtain ⟨hrange, hnear, hsquare⟩ :=
    inRange_onDiagonal (t := t) ho (by omega) (by omega)
  refine ⟨onDiagonal origin t, hrange, hnear, ?_, ?_⟩
  · rw [hsquare]
    nlinarith
  · -- the distance is between `a`, the first one that is too far, and `b`
    let a : ℤ := (4294968 * s + 99) / 100
    let b : ℤ := 42955 * s
    have ha : a ^ 2 ≤ (onDiagonal origin t).squaredDistance origin := by
      have hupper : 100 * a ≤ 4294968 * s + 99 := by omega
      have hsq : (100 * a) ^ 2 ≤ (4294968 * s + 99) ^ 2 := pow_le_pow_left₀ (by omega) hupper 2
      have hsq' : (2 * (1239851 * s + 51)) ^ 2 ≤ (100 * t) ^ 2 :=
        pow_le_pow_left₀ (by omega) (by omega) 2
      rw [hsquare]
      nlinarith
    have hb : (onDiagonal origin t).squaredDistance origin ≤ b ^ 2 := by
      have hsq : t ^ 2 ≤ (24800 * s) ^ 2 := pow_le_pow_left₀ (by omega) hhigh 2
      rw [hsquare]
      nlinarith
    lift a to ℕ using by omega with a' ha'
    lift b to ℕ using by omega with b' hb'
    obtain ⟨hmin, hmax⟩ := delayMs_mem hs ha hb
    constructor
    · refine le_trans ?_ hmin
      rw [Int.le_ediv_iff_mul_le hs]
      omega
    · refine hmax.trans (Int.ediv_le_of_le_mul hs ?_)
      omega

/-- A slow wave does not keep the order: the wait of a far device on the diagonal has wrapped
around, and a device at half its distance waits longer. -/
lemma not_reachesInOrder_of_slow (ho : origin.InRange) (hs : 0 < s) (hslow : s ≤ 86602) :
    ¬ ReachesInOrder platform origin s := by
  intro hall
  obtain ⟨hrange, hnear, hsquare⟩ := inRange_onAxis (t := 22000 * s) ho (by omega) (by omega)
  obtain ⟨far, hfarRange, hfar, hfarther, hmin, hmax⟩ := delayMs_onDiagonal ho hs hslow
  have hdelay : delayMs (onAxis origin (22000 * s)) origin s = 2200000 := by
    obtain ⟨n, hn⟩ := Int.eq_ofNat_of_zero_le (show 0 ≤ 22000 * s by omega)
    have hsqrt : Nat.sqrt ((22000 * s) ^ 2).toNat = n := by
      rw [hn]
      exact_mod_cast Nat.sqrt_eq' n
    rw [delayMs, hsquare, hsqrt, ← hn, show 100 * (22000 * s) = 2200000 * s by ring,
      Int.mul_ediv_cancel _ hs.ne']
  have hle := (hall _ far hrange hfarRange hnear hfar).1 (hsquare.trans_le hfarther)
  have hwait := waitTicks_of_lt platform hs hnear (by omega)
  have hwaitFar := waitTicks_eq platform hs hfar (by omega)
  have hlost : lostTicks (delayMs far origin s) = 4294968 := by
    unfold lostTicks
    omega
  dsimp only at hle
  omega

end Slow

/-- **When a wave reaches farther devices later.**  A wave of positive speed keeps the order of any
two devices exactly when its speed is at least 86603: then no delay is too long for the product of
`pdMS_TO_TICKS`.  Two devices whose delays fit into an `int` are in order exactly when the delay of
the farther one is longer by at least what the product takes off it in addition. -/
theorem reachesInOrder_iff (platform : FloatValue → ℤ) {origin : Location} (ho : origin.InRange)
    {s : ℤ} (hs : 0 < s) :
    (ReachesInOrder platform origin s ↔ 86603 ≤ s) ∧
      ∀ near far : Location, near.Near origin → far.Near origin →
        near.squaredDistance origin ≤ far.squaredDistance origin → delayMs far origin s < 2 ^ 31 →
          (InOrder platform origin s near far ↔
            lostTicks (delayMs far origin s) - lostTicks (delayMs near origin s) ≤
              delayMs far origin s - delayMs near origin s) := by
  refine ⟨⟨fun hall => ?_, reachesInOrder_of_fast⟩, fun near far => inOrder_iff hs⟩
  by_contra hslow
  exact not_reachesInOrder_of_slow ho hs (by omega) hall

/-- A device in the first direction from the centre of the coordinates. -/
def deviceAt (x : ℤ) : Location := ⟨x, 0, 0⟩

/-- A wave of speed 100000 from the centre. -/
theorem reachesInOrder_fast :
    ReachesInOrder (fun _ => 0) (deviceAt 0) 100000 ∧
      InOrder (fun _ => 0) (deviceAt 0) 100 (deviceAt 10) (deviceAt 20) := by
  have ho : (deviceAt 0).InRange := ⟨by decide, by decide, by decide⟩
  have hnear : (deviceAt 10).Near (deviceAt 0) := ⟨by decide, by decide, by decide⟩
  have hfar : (deviceAt 20).Near (deviceAt 0) := ⟨by decide, by decide, by decide⟩
  refine ⟨((reachesInOrder_iff _ ho (by decide)).1).mpr (by decide), ?_⟩
  exact ((reachesInOrder_iff _ ho (by decide)).2 _ _ hnear hfar (by decide)
    (by decide +kernel)).mpr (by decide +kernel)

/-- At the speed 1, the device at 42949 waits more than an hour, and the device at 42950 waits 32
milliseconds. -/
theorem not_reachesInOrder_one :
    (∀ platform, waitTicks platform (deviceAt 42949) 0 0 0 1 = 4294900 ∧
      waitTicks platform (deviceAt 42950) 0 0 0 1 = 32) ∧
    ¬ ∀ (platform : FloatValue → ℤ) (origin : Location) (s : ℤ), origin.InRange → 0 < s →
      ReachesInOrder platform origin s := by
  have hnear : delayMs (deviceAt 42949) (deviceAt 0) 1 = 4294900 := by decide +kernel
  have hfar : delayMs (deviceAt 42950) (deviceAt 0) 1 = 4295000 := by decide +kernel
  have hinNear : (deviceAt 42949).Near (deviceAt 0) := ⟨by decide, by decide, by decide⟩
  have hinFar : (deviceAt 42950).Near (deviceAt 0) := ⟨by decide, by decide, by decide⟩
  have hwaits : ∀ platform, waitTicks platform (deviceAt 42949) 0 0 0 1 = 4294900 ∧
      waitTicks platform (deviceAt 42950) 0 0 0 1 = 32 := by
    intro platform
    constructor
    · exact (waitTicks_of_lt platform (by decide) hinNear (by omega)).trans hnear
    · have hwait := waitTicks_eq (s := 1) platform (by decide) hinFar (by omega)
      rw [hfar] at hwait
      exact hwait
  refine ⟨hwaits, ?_⟩
  intro hall
  have hle := (hall (fun _ => 0) (deviceAt 0) 1 ⟨by decide, by decide, by decide⟩ (by decide)
    (deviceAt 42949) (deviceAt 42950) ⟨by decide, by decide, by decide⟩
    ⟨by decide, by decide, by decide⟩ hinNear hinFar).1 (by decide)
  obtain ⟨hwait, hwait'⟩ := hwaits fun _ => 0
  have hle' : (4294900 : ℤ) ≤ 32 := (hwait.symm.trans_le hle).trans_eq hwait'
  exact absurd hle' (by decide)

end Strand
