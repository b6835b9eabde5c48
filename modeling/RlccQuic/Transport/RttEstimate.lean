/-
  RlccQuic.Transport.RttEstimate — the round-trip estimate over any samples (`xqc_send_ctl_update_rtt`), and what a
  spurious loss does to the thresholds (`xqc_send_ctl_on_spurious_loss_detected`).

  The estimate moves an eighth of the way to a sample, the variation a quarter, in words. The peer's delay is taken off a
  sample if it is at least the smallest one plus the delay; that sum is a word, too, and the delay is the peer's choice.

  A packet that was taken for lost and is acknowledged raises the packet threshold to its
  distance and lowers the shift until its delay is tolerated. Loss detection then uses both:
  the threshold only if the largest number is above it, the delay only if it is before `now`.

  Proved: the estimate stays among the samples exactly as long as that sum does not wrap (`estimate_in_hull_iff`); and
  when exactly the packet would be tolerated (`spurious_loss_is_tolerated_iff`).
-/

import RlccQuic.Lib.Run
import RlccQuic.Transport.SendCtl

namespace RlccQuic.Transport.RttEstimate

open Lib SendCtl List UInt64 Word

/-! ## Averages -/

/-- A share `1 / 2^k` of the old value goes, and as much of the new one comes. -/
def ewma (k x y : Nat) : Nat := x - x / 2 ^ k + y / 2 ^ k

lemma rest_mono {k x y : Nat} (h : x ≤ y) : x - x / 2 ^ k ≤ y - y / 2 ^ k := by
  obtain ⟨d, rfl⟩ := Nat.exists_eq_add_of_le h
  have hsum : (x + d) / 2 ^ k ≤ x / 2 ^ k + d := by
    rw [Nat.div_le_iff_le_mul_add_pred (Nat.two_pow_pos k), Nat.mul_add]
    have hdm := Nat.div_add_mod x (2 ^ k)
    have hd : d ≤ 2 ^ k * d := Nat.le_mul_of_pos_left d (Nat.two_pow_pos k)
    omega
  omega

lemma ewma_self (k m : Nat) : ewma k m m = m := Nat.sub_add_cancel (Nat.div_le_self _ _)

lemma ewma_mono {k x y x' y' : Nat} (hx : x ≤ x') (hy : y ≤ y') : ewma k x y ≤ ewma k x' y' :=
  Nat.add_le_add (rest_mono hx) (Nat.div_le_div_right hy)

lemma ewma_le {k x y m : Nat} (hx : x ≤ m) (hy : y ≤ m) : ewma k x y ≤ m :=
  (ewma_mono hx hy).trans_eq (ewma_self k m)

lemma le_ewma {k x y m : Nat} (hx : m ≤ x) (hy : m ≤ y) : m ≤ ewma k x y :=
  (ewma_self k m).symm.le.trans (ewma_mono hx hy)

/-! ## One update -/

def delayOf (conn : Conn) (ackDelay : UInt64) : UInt64 :=
  if conn.handshakeConfirmed then minU64 ackDelay (conn.maxAckDelay * 1000) else ackDelay

def adjusted (d : UInt64) (r : Rtt) : UInt64 :=
  if r.latestRtt ≥ minU64 r.latestRtt r.minrtt + d then r.latestRtt - d else r.latestRtt

def deviation (srtt adj : UInt64) : UInt64 := if srtt > adj then srtt - adj else adj - srtt

lemma updateRtt_first (conn : Conn) (clock ackDelay : UInt64) {r : Rtt} (h : r.firstRttSampleTime = 0) :
    xqcSendCtlUpdateRtt conn clock ackDelay r =
      { r with minrtt := r.latestRtt, srtt := r.latestRtt, rttvar := r.latestRtt >>> 1, firstRttSampleTime := clock } := by
  rw [xqcSendCtlUpdateRtt, if_pos h]

lemma updateRtt_later (conn : Conn) (clock ackDelay : UInt64) {r : Rtt} (h : r.firstRttSampleTime ≠ 0) :
    xqcSendCtlUpdateRtt conn clock ackDelay r =
      { r with
        minrtt := minU64 r.latestRtt r.minrtt
        rttvar := r.rttvar - (r.rttvar >>> 2) + (deviation r.srtt (adjusted (delayOf conn ackDelay) r) >>> 2)
        srtt := r.srtt - (r.srtt >>> 3) + (adjusted (delayOf conn ackDelay) r >>> 3) } := by
  rw [xqcSendCtlUpdateRtt, if_neg h]; rfl

/-- Every sum and difference of an update but the first is exact. -/
structure Exact (d : UInt64) (r : Rtt) : Prop where
  fits : (minU64 r.latestRtt r.minrtt).toNat + d.toNat < 2 ^ 64
  delay : r.latestRtt ≥ minU64 r.latestRtt r.minrtt + d → d ≤ r.latestRtt
  rttvar : (r.rttvar >>> 2) ≤ r.rttvar ∧
    (r.rttvar - (r.rttvar >>> 2)).toNat + (deviation r.srtt (adjusted d r) >>> 2).toNat < 2 ^ 64
  srtt : (r.srtt >>> 3) ≤ r.srtt ∧ (r.srtt - (r.srtt >>> 3)).toNat + (adjusted d r >>> 3).toNat < 2 ^ 64

instance (d : UInt64) (r : Rtt) : Decidable (Exact d r) :=
  decidable_of_iff (_ ∧ _ ∧ _ ∧ _)
    ⟨fun ⟨h1, h2, h3, h4⟩ => ⟨h1, h2, h3, h4⟩, fun ⟨h1, h2, h3, h4⟩ => ⟨h1, h2, h3, h4⟩⟩

lemma toNat_shiftRight {k : UInt64} (hk : k.toNat < 64) (x : UInt64) : (x >>> k).toNat = x.toNat / 2 ^ k.toNat := by
  rw [UInt64.toNat_shiftRight, Nat.mod_eq_of_lt hk, Nat.shiftRight_eq_div_pow]

lemma shiftRight_le {k : UInt64} (hk : k.toNat < 64) (x : UInt64) : x >>> k ≤ x := by
  rw [le_iff_toNat_le, toNat_shiftRight hk]; exact Nat.div_le_self _ _

lemma toNat_average {k : UInt64} (hk : k.toNat < 64) {x y : UInt64} (h : ewma k.toNat x.toNat y.toNat < 2 ^ 64) :
    (x - (x >>> k)).toNat + (y >>> k).toNat = ewma k.toNat x.toNat y.toNat ∧
      (x - (x >>> k) + (y >>> k)).toNat = ewma k.toNat x.toNat y.toNat := by
  have hrest : (x - (x >>> k)).toNat = x.toNat - x.toNat / 2 ^ k.toNat := by
    rw [UInt64.toNat_sub_of_le _ _ (shiftRight_le hk x), toNat_shiftRight hk]
  have hsum : (x - (x >>> k)).toNat + (y >>> k).toNat = ewma k.toNat x.toNat y.toNat := by
    rw [hrest, toNat_shiftRight hk]; rfl
  refine ⟨hsum, ?_⟩
  rw [UInt64.toNat_add, hsum, Nat.mod_eq_of_lt h]

/-! ## Any samples -/

/-- A sample with the acknowledgement it is from. The clock is not at 0, which stands for "no sample yet". -/
structure Sample where
  conn : Conn
  clock : UInt64
  ackDelay : UInt64
  latest : UInt64
  clock_ne : clock ≠ 0
  latest_lt : latest.toNat < 2 ^ 40

/-- The estimate, the samples so far, and whether all sums and differences were exact. -/
structure Est where
  rtt : Rtt
  seen : List UInt64
  exact : Bool

def take (e : Est) (u : Sample) : Est :=
  let r := { e.rtt with latestRtt := u.latest }
  { rtt := xqcSendCtlUpdateRtt u.conn u.clock u.ackDelay r
    seen := e.seen ++ [u.latest]
    exact := e.exact && (decide (r.firstRttSampleTime = 0) || decide (Exact (delayOf u.conn u.ackDelay) r)) }

def InHull (seen : List UInt64) (r : Rtt) : Prop :=
  ∃ lo ∈ seen, ∃ hi ∈ seen, (∀ x ∈ seen, lo ≤ x ∧ x ≤ hi) ∧
    r.minrtt = lo ∧ (lo ≤ r.srtt ∧ r.srtt ≤ hi) ∧ r.rttvar ≤ hi

def Est.Sound (e : Est) : Prop := e.exact = true ∧ (e.seen ≠ [] → InHull e.seen e.rtt)

def Plausible (e : Est) (u : Sample) : Prop :=
  e.rtt.firstRttSampleTime = 0 ∨
    (minU64 u.latest e.rtt.minrtt).toNat + (delayOf u.conn u.ackDelay).toNat < 2 ^ 64

def Est.Started (e : Est) : Prop := (e.rtt.firstRttSampleTime = 0 ↔ e.seen = []) ∧ ∀ x ∈ e.seen, x.toNat < 2 ^ 40

lemma take_started (e : Est) (u : Sample) (h : e.Started) : (take e u).Started := by
  refine ⟨⟨fun hzero => ?_, fun hnil => absurd hnil (by simp [take])⟩, fun x hx => ?_⟩
  · by_cases hfirst : e.rtt.firstRttSampleTime = 0
    · rw [take, updateRtt_first _ _ _ (by exact hfirst)] at hzero; exact absurd hzero u.clock_ne
    · rw [take, updateRtt_later _ _ _ (by exact hfirst)] at hzero; exact absurd hzero hfirst
  · rcases mem_append.mp hx with hx | hx
    · exact h.2 x hx
    · rw [mem_singleton.mp hx]; exact u.latest_lt

lemma adjusted_bounds {d : UInt64} {r : Rtt} (h : (minU64 r.latestRtt r.minrtt).toNat + d.toNat < 2 ^ 64) :
    (r.latestRtt ≥ minU64 r.latestRtt r.minrtt + d → d ≤ r.latestRtt) ∧
      minU64 r.latestRtt r.minrtt ≤ adjusted d r ∧ adjusted d r ≤ r.latestRtt := by
  have hsum : (minU64 r.latestRtt r.minrtt + d).toNat = (minU64 r.latestRtt r.minrtt).toNat + d.toNat := by
    rw [UInt64.toNat_add, Nat.mod_eq_of_lt h]
  have hmin : (minU64 r.latestRtt r.minrtt).toNat ≤ r.latestRtt.toNat := by
    rw [toNat_minU64]; exact Nat.min_le_left _ _
  unfold adjusted
  simp only [ge_iff_le, le_iff_toNat_le, hsum]; split
  · rename_i hle
    have hd : d ≤ r.latestRtt := le_iff_toNat_le.mpr (by omega)
    rw [UInt64.toNat_sub_of_le _ _ hd]; omega
  · omega

lemma deviation_le {srtt adj : UInt64} {m : Nat} (hs : srtt.toNat ≤ m) (ha : adj.toNat ≤ m) :
    (deviation srtt adj).toNat ≤ m := by
  unfold deviation; split
  · rename_i hlt; rw [UInt64.toNat_sub_of_le _ _ (UInt64.le_of_lt hlt)]; omega
  · rename_i hge; rw [UInt64.toNat_sub_of_le _ _ (UInt64.not_lt.mp hge)]; omega

lemma take_later {e : Est} {u : Sample} (h : e.Started) (hs : e.Sound) (hfirst : e.rtt.firstRttSampleTime ≠ 0)
    (hp : (minU64 u.latest e.rtt.minrtt).toNat + (delayOf u.conn u.ackDelay).toNat < 2 ^ 64) :
    Exact (delayOf u.conn u.ackDelay) { e.rtt with latestRtt := u.latest } ∧ InHull (take e u).seen (take e u).rtt := by
  obtain ⟨lo, hlo, hi, hhi, hall, hmin, ⟨hsl, hsh⟩, hvar⟩ := hs.2 fun hnil => hfirst (h.1.mpr hnil)
  generalize hd : delayOf u.conn u.ackDelay = d at hp
  have hbounds := adjusted_bounds (r := { e.rtt with latestRtt := u.latest }) hp
  generalize hadj : adjusted d { e.rtt with latestRtt := u.latest } = adj at hbounds
  obtain ⟨hdelay, hlow, hhigh⟩ := hbounds
  have hlow : min u.latest.toNat lo.toNat ≤ adj.toNat := by
    rw [← hmin, ← toNat_minU64]; exact le_iff_toNat_le.mp hlow
  have hhigh : adj.toNat ≤ u.latest.toNat := le_iff_toNat_le.mp hhigh
  rw [le_iff_toNat_le] at hsl hsh hvar
  have hhi_lt := h.2 hi hhi
  have hlat_lt := u.latest_lt
  generalize hm : max hi.toNat u.latest.toNat = m
  have hdev : (deviation e.rtt.srtt adj).toNat ≤ m := deviation_le (by omega) (by omega)
  have hsrtt_le : ewma 3 e.rtt.srtt.toNat adj.toNat ≤ m := ewma_le (by omega) (by omega)
  have hvar_le : ewma 2 e.rtt.rttvar.toNat (deviation e.rtt.srtt adj).toNat ≤ m := ewma_le (by omega) hdev
  have hsrtt := toNat_average (k := 3) (by decide) (x := e.rtt.srtt) (y := adj) (by exact hsrtt_le.trans_lt (by omega))
  have hrttvar := toNat_average (k := 2) (by decide) (x := e.rtt.rttvar) (y := deviation e.rtt.srtt adj)
    (by exact hvar_le.trans_lt (by omega))
  refine ⟨⟨hp, hdelay, ⟨shiftRight_le (by decide) _, ?_⟩, shiftRight_le (by decide) _, ?_⟩, ?_⟩
  · rw [hadj]; exact hrttvar.1.trans_lt (hvar_le.trans_lt (by omega))
  · rw [hadj]; exact hsrtt.1.trans_lt (hsrtt_le.trans_lt (by omega))
  · refine ⟨minU64 u.latest lo, ?_, maxU64 hi u.latest, ?_, fun x hx => ?_, ?_, ?_, ?_⟩
    · unfold minU64; split
      · exact mem_append_right _ mem_cons_self
      · exact mem_append_left _ hlo
    · unfold maxU64; split
      · exact mem_append_left _ hhi
      · exact mem_append_right _ mem_cons_self
    · rw [le_iff_toNat_le, le_iff_toNat_le, toNat_minU64, toNat_maxU64]
      rcases mem_append.mp hx with hx | hx
      · have := hall x hx; rw [le_iff_toNat_le, le_iff_toNat_le] at this; omega
      · rw [mem_singleton.mp hx]; omega
    all_goals rw [take, updateRtt_later _ _ _ (by exact hfirst), hd, hadj]
    · show minU64 u.latest e.rtt.minrtt = _
      rw [hmin]
    · rw [le_iff_toNat_le, le_iff_toNat_le, toNat_minU64, toNat_maxU64, hm]
      exact ⟨(le_ewma (by omega) hlow).trans hsrtt.2.symm.le, hsrtt.2.le.trans hsrtt_le⟩
    · rw [le_iff_toNat_le, toNat_maxU64, hm]; exact hrttvar.2.le.trans hvar_le

lemma take_first {e : Est} {u : Sample} (h : e.Started) (hfirst : e.rtt.firstRttSampleTime = 0) :
    InHull (take e u).seen (take e u).rtt := by
  have hseen : (take e u).seen = [u.latest] := by
    show e.seen ++ [u.latest] = _
    rw [h.1.mp hfirst]; rfl
  rw [hseen, take, updateRtt_first _ _ _ (by exact hfirst)]
  refine ⟨u.latest, mem_cons_self, u.latest, mem_cons_self, fun x hx => ?_, rfl, ⟨?_, ?_⟩, ?_⟩
  · rw [mem_singleton.mp hx]; exact ⟨UInt64.le_refl _, UInt64.le_refl _⟩
  · exact UInt64.le_refl _
  · exact UInt64.le_refl _
  · exact shiftRight_le (by decide) _

lemma take_sound_iff (e : Est) (u : Sample) (h : e.Started) (hs : e.Sound) (_ : True) : (take e u).Sound ↔ Plausible e u := by
  by_cases hfirst : e.rtt.firstRttSampleTime = 0
  · refine ⟨fun _ => .inl hfirst, fun _ => ⟨?_, fun _ => take_first h hfirst⟩⟩
    simp [take, hs.1, hfirst]
  · constructor
    · intro hsound
      have hexact : Exact (delayOf u.conn u.ackDelay) { e.rtt with latestRtt := u.latest } := by
        have := hsound.1
        simp only [take, hs.1, hfirst, decide_false, Bool.true_and, Bool.false_or, decide_eq_true_eq] at this
        exact this
      exact .inr hexact.fits
    · rintro (hzero | hp)
      · exact absurd hzero hfirst
      · obtain ⟨hexact, hhull⟩ := take_later h hs hfirst hp
        exact ⟨by simp [take, hs.1, hexact], fun _ => hhull⟩

/-- Over any samples, all states are sound exactly as long as the smallest sample plus the
    peer's delay is a word. -/
theorem estimate_in_hull_iff (r : Rtt) (hr : r.firstRttSampleTime = 0) (us : List Sample) :
    (∀ e ∈ visited take ⟨r, [], true⟩ us, e.Sound) ↔ Meets Plausible take ⟨r, [], true⟩ us :=
  visited_forall_iff (E := fun _ => True) take_started take_sound_iff us _ ⟨⟨fun _ => rfl, fun _ => hr⟩, by simp⟩
    ⟨rfl, fun hne => absurd rfl hne⟩ (fun _ _ => trivial)

-- Decided over the list of samples: the words are a finite type as well, but not one to go through.
instance (seen : List UInt64) (r : Rtt) : Decidable (InHull seen r) :=
  decidable_of_iff ((seen.any fun lo => seen.any fun hi => (seen.all fun x => decide (lo ≤ x ∧ x ≤ hi)) &&
      decide (r.minrtt = lo ∧ (lo ≤ r.srtt ∧ r.srtt ≤ hi) ∧ r.rttvar ≤ hi)) = true)
    (by simp only [InHull, any_eq_true, all_eq_true, Bool.and_eq_true, decide_eq_true_eq])

instance (e : Est) : Decidable e.Sound := by
  unfold Est.Sound
  infer_instance

instance (e : Est) (u : Sample) : Decidable (Plausible e u) := by
  unfold Plausible
  infer_instance

def unconfirmed : Conn := ⟨false, true, true, false, false, false, false, 25⟩

/-- Two samples of 50 ms; with the second the peer says it waited 2^61 - 1 times 8 us. -/
theorem a_long_delay_leaves_the_hull :
    ¬ ∀ e ∈ visited take ⟨(xqcSendCtlCreate unconfirmed).rtt, [], true⟩
      [⟨unconfirmed, 1000, 0, 50000, by decide, by decide⟩,
        ⟨unconfirmed, 2000, (0x1fffffffffffffff : UInt64) <<< 3, 50000, by decide, by decide⟩], e.Sound := by
  decide

theorem a_short_delay_is_taken_off :
    ¬ ∃ e ∈ visited take ⟨(xqcSendCtlCreate unconfirmed).rtt, [], true⟩
      [⟨unconfirmed, 1000, 0, 50000, by decide, by decide⟩, ⟨unconfirmed, 2000, 8000, 60000, by decide, by decide⟩], ¬ e.Sound :=
  fun hex => Exists.elim hex fun e ⟨he, hne⟩ => hne ((estimate_in_hull_iff (xqcSendCtlCreate unconfirmed).rtt rfl
    [⟨unconfirmed, 1000, 0, 50000, by decide, by decide⟩, ⟨unconfirmed, 2000, 8000, 60000, by decide, by decide⟩]).mpr
      ⟨.inl rfl, .inr (by decide), trivial⟩ e he)

/-! ## Spurious losses -/

def tolerance (maxRtt : UInt64) (k : Nat) : UInt64 := maxRtt + (maxRtt >>> UInt64.ofNat k)

lemma relaxShift_le (maxRtt interval : UInt64) : ∀ k, relaxShift maxRtt interval k ≤ k
  | 0 => le_rfl
  | k + 1 => by
    rw [relaxShift]; split
    · exact (relaxShift_le maxRtt interval k).trans (Nat.le_succ k)
    · exact le_rfl

/-- The loop goes past the shifts that do not tolerate the interval, and stops at the first one that does. -/
lemma relaxShift_spec (maxRtt interval : UInt64) : ∀ k,
    (∀ j, relaxShift maxRtt interval k < j → j ≤ k → tolerance maxRtt j < interval) ∧
      (relaxShift maxRtt interval k ≠ 0 → interval ≤ tolerance maxRtt (relaxShift maxRtt interval k))
  | 0 => ⟨fun j hlt hle => absurd (Nat.lt_of_lt_of_le hlt hle) (Nat.lt_irrefl _), fun h => absurd rfl h⟩
  | k + 1 => by
    obtain ⟨hpast, hstop⟩ := relaxShift_spec maxRtt interval k
    rw [relaxShift]; split
    · rename_i hlt
      refine ⟨fun j hj hle => ?_, hstop⟩
      rcases Nat.lt_or_ge k j with hkj | hjk
      · rw [Nat.le_antisymm hle hkj]; exact hlt
      · exact hpast j hj hjk
    · rename_i hge
      exact ⟨fun j hj hle => absurd (Nat.lt_of_lt_of_le hj hle) (Nat.lt_irrefl _), fun _ => UInt64.not_lt.mp hge⟩

/-- In words, a packet is not older than `delay` exactly if the delay is longer and not before the beginning of time. -/
lemma not_older_iff {now sent delay : UInt64} (hs : sent ≤ now) :
    ¬ sent ≤ now - delay ↔ now - sent < delay ∧ delay ≤ now := by
  rw [le_iff_toNat_le] at hs
  rw [le_iff_toNat_le, lt_iff_toNat_lt, le_iff_toNat_le,
    UInt64.toNat_sub_of_le _ _ (UInt64.le_iff_toNat_le.mpr hs), UInt64.toNat_sub]
  have := now.toNat_lt; omega

/-- The number rule spares the packet: the largest number is above the threshold, and above
    the packet's distance plus one. -/
lemma number_spared_iff {r : Rtt} {largestAck p : UInt64} (hp : p ≤ largestAck) :
    ¬ p ≤ lostPn { r with reorderingPacketThreshold := maxU64 r.reorderingPacketThreshold (largestAck - p + 1) } largestAck ↔
      r.reorderingPacketThreshold < largestAck ∧ 1 < p := by
  have hdist : (largestAck - p + 1).toNat = (largestAck.toNat - p.toNat + 1) % 2 ^ 64 := by
    rw [UInt64.toNat_add, UInt64.toNat_sub_of_le _ _ hp]; rfl
  have hone : (1 : UInt64).toNat = 1 := rfl
  have hl := largestAck.toNat_lt
  rw [le_iff_toNat_le] at hp
  unfold lostPn; split
  · rename_i hgt
    have hle := UInt64.le_of_lt hgt
    rw [gt_iff_lt, lt_iff_toNat_lt, toNat_maxU64, hdist] at hgt
    rw [UInt64.le_iff_toNat_le, UInt64.toNat_sub_of_le _ _ hle, toNat_maxU64, hdist, UInt64.lt_iff_toNat_lt,
      lt_iff_toNat_lt, hone]
    omega
  · rename_i hge; rw [gt_iff_lt, lt_iff_toNat_lt, toNat_maxU64, hdist] at hge
    rw [le_iff_toNat_le, lt_iff_toNat_lt, lt_iff_toNat_lt, hone]; omega

/-- What a spurious loss is to make of the thresholds: they get more tolerant, and the two
    rules of loss detection spare the packet, the time rule unless there is no shift left. -/
structure Tolerated (r r' : Rtt) (now largestAck p sent : UInt64) : Prop where
  threshold : r.reorderingPacketThreshold ≤ r'.reorderingPacketThreshold
  shift : r'.reorderingTimeThresholdShift ≤ r.reorderingTimeThresholdShift
  number : ¬ p ≤ lostPn r' largestAck
  time : r'.reorderingTimeThresholdShift = 0 ∨ ¬ sent ≤ now - lossDelay r'

def delayAt (r : Rtt) (k : Nat) : UInt64 := maxU64 (tolerance (maxU64 r.latestRtt r.srtt) k) xqcKGranularity

/-- The number and its largest one leave room for a threshold, and the first shift that
    tolerates the packet's age does so by more than nothing and does not reach back before 0. -/
def Spares (r : Rtt) (now largestAck p sent : UInt64) : Prop :=
  (r.reorderingPacketThreshold < largestAck ∧ 1 < p) ∧
    ∀ k, 1 ≤ k → k ≤ r.reorderingTimeThresholdShift →
      (∀ j, k < j → j ≤ r.reorderingTimeThresholdShift → tolerance (maxU64 r.latestRtt r.srtt) j < now - sent) →
      now - sent ≤ tolerance (maxU64 r.latestRtt r.srtt) k → now - sent < delayAt r k ∧ delayAt r k ≤ now

lemma time_spared_iff {r : Rtt} {now sent : UInt64} (hs : sent ≤ now) :
    let k := relaxShift (maxU64 r.latestRtt r.srtt) (now - sent) r.reorderingTimeThresholdShift
    (k = 0 ∨ ¬ sent ≤ now - delayAt r k) ↔
      ∀ k, 1 ≤ k → k ≤ r.reorderingTimeThresholdShift →
        (∀ j, k < j → j ≤ r.reorderingTimeThresholdShift → tolerance (maxU64 r.latestRtt r.srtt) j < now - sent) →
        now - sent ≤ tolerance (maxU64 r.latestRtt r.srtt) k → now - sent < delayAt r k ∧ delayAt r k ≤ now := by
  intro k
  obtain ⟨hpast, hstop⟩ := relaxShift_spec (maxU64 r.latestRtt r.srtt) (now - sent) r.reorderingTimeThresholdShift
  have hle := relaxShift_le (maxU64 r.latestRtt r.srtt) (now - sent) r.reorderingTimeThresholdShift
  constructor
  · intro h i hpos hi hbefore htol
    -- the first shift that tolerates the age is the one the loop stops at
    have hik : i = k := by
      rcases Nat.lt_trichotomy i k with hlt | heq | hgt
      · exact absurd (hstop (by omega)) (UInt64.not_le.mpr (hbefore k hlt hle))
      · exact heq
      · exact absurd htol (UInt64.not_le.mpr (hpast i hgt hi))
    rw [hik] at hpos htol ⊢
    exact (not_older_iff hs).mp (h.resolve_left (by omega))
  · intro h
    by_cases hk : k = 0
    · exact .inl hk
    · exact .inr ((not_older_iff hs).mpr (h k (by omega) hle hpast (hstop hk)))

/-- Exactly then is the packet tolerated. -/
theorem spurious_loss_is_tolerated_iff (r : Rtt) (now largestAck p sent : UInt64) (hp : p ≤ largestAck) (hs : sent ≤ now) :
    Tolerated r (xqcSendCtlOnSpuriousLossDetected true now largestAck p sent r) now largestAck p sent ↔
      Spares r now largestAck p sent := by
  have heq : xqcSendCtlOnSpuriousLossDetected true now largestAck p sent r =
      { r with
        reorderingPacketThreshold := maxU64 r.reorderingPacketThreshold (largestAck - p + 1)
        reorderingTimeThresholdShift :=
          relaxShift (maxU64 r.latestRtt r.srtt) (now - sent) r.reorderingTimeThresholdShift } := by
    rw [xqcSendCtlOnSpuriousLossDetected, if_neg (by simpa using hp), if_neg (UInt64.not_lt.mpr hs)]
  have hthr : r.reorderingPacketThreshold ≤ maxU64 r.reorderingPacketThreshold (largestAck - p + 1) := by
    rw [le_iff_toNat_le, toNat_maxU64]; exact Nat.le_max_left _ _
  rw [heq]
  constructor
  · intro h; exact ⟨(number_spared_iff hp).mp h.number, (time_spared_iff hs).mp h.time⟩
  · rintro ⟨hnum, htime⟩
    exact ⟨hthr, relaxShift_le _ _ _, (number_spared_iff hp).mpr hnum, (time_spared_iff hs).mpr htime⟩

def steady : Rtt := ⟨50000, 25000, 50000, 50000, 1000, 3, 3⟩

/-- Packet 1 is acknowledged together with packet 3: the threshold stays at 3, packet 3 is not
    above it, and packet 1 would be lost again. -/
theorem an_early_packet_is_not_tolerated :
    (1 : UInt64) ≤ 3 ∧ (100000 : UInt64) ≤ 160000 ∧
      ¬ Tolerated steady (xqcSendCtlOnSpuriousLossDetected true 160000 3 1 100000 steady) 160000 3 1 100000 :=
  ⟨by decide, by decide, fun h => h.number (by decide)⟩

theorem a_packet_six_numbers_back_is_tolerated :
    Tolerated steady (xqcSendCtlOnSpuriousLossDetected true 160000 10 5 100000 steady) 160000 10 5 100000 := by
  refine (spurious_loss_is_tolerated_iff steady 160000 10 5 100000 (by decide) (by decide)).mpr ⟨by decide, ?_⟩
  intro k hpos hle hbefore htol
  match k, hpos, hle with
  | 1, _, _ => exact absurd (hbefore 2 (by decide) (by decide)) (by decide)
  | 2, _, _ => exact ⟨by decide, by decide⟩
  | 3, _, _ => exact absurd htol (by decide)

end RlccQuic.Transport.RttEstimate
