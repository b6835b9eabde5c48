/-
  RlccQuic.Gym.Observation — what `RlccEnv._get_obs` makes of one message.

  The environment tells messages apart by the number of their `;`-separated fields only: more than five is a state,
  three is the end of a flow, anything else is passed over. A state is divided field by field by a fixed scale; the
  observation is the state without its last three fields. Values are integers and exact quotients; the rounding to
  32-bit floats is not modelled.

  Proved: a record of twelve integers is decoded as that state (`decode_record`), and a state of non-negative 64-bit
  integers has an observation inside the declared box (`observation_inBox`).
-/

import Mathlib.Algebra.Order.Field.Basic
import Mathlib.Algebra.Order.Ring.Rat
import Mathlib.Algebra.Field.Rat
import RlccQuic.Lib.Text

namespace RlccQuic.Gym.Observation

open Lib Lib.Text List

/-! ## Decoding -/

inductive Decoded where
  | state (vs : List Int)
  | done
  | skip
  /-- `np.array` raises on a field that is not a number, and the division by the
      scale on a record that is not twelve fields long. -/
  | invalid
  deriving DecidableEq, Repr

def scale : List Nat := [1, 1, 512, 512, 512, 16384, 1, 1, 1, 1024, 1024, 1]

def decode (data : Text) : Decoded :=
  let fields := data.splitOn ';'
  if fields.length > 5 then
    match fields.mapM readInt with
    | some vs => if vs.length = scale.length then .state vs else .invalid
    | none => .invalid
  else if fields.length = 3 then .done
  else .skip

theorem decode_record {vs : List Int} (h : vs.length = scale.length) : decode (record ';' vs) = .state vs := by
  have hlen : vs.length = 12 := h
  have hne : vs ≠ [] := by rintro rfl; exact absurd hlen (by decide)
  have hsplit : (record ';' vs).splitOn ';' = vs.map showInt := splitOn_record (by decide) (by decide) hne
  have hread : (vs.map showInt).mapM readInt = some vs := by
    rw [← hsplit]; exact readFields_record (by decide) (by decide) hne
  unfold decode; rw [hsplit]
  simp only [length_map, hlen, hread]
  rfl

/-! ## Observations -/

def scaled (vs : List Int) : List Rat := List.zipWith (fun (v : Int) (k : Nat) => (v : Rat) / (k : Rat)) vs scale

def observation {α : Type} (state : List α) : List α := state.take (state.length - 3)

def float32Max : Rat := (((2 ^ 24 - 1) * 2 ^ 104 : Nat) : Rat)

/-- `self.observation_space`, a box of nine entries. -/
def InBox (o : List Rat) : Prop := o.length = 9 ∧ ∀ x ∈ o, 0 ≤ x ∧ x ≤ float32Max

lemma scaled_length {vs : List Int} (h : vs.length = scale.length) : (scaled vs).length = 12 := by
  rw [scaled, length_zipWith, h]
  decide

lemma div_scale_bounds {v : Int} {k : Nat} (h0 : 0 ≤ v) (h64 : v < 2 ^ 64) (hk : 1 ≤ k) :
    0 ≤ (v : Rat) / (k : Rat) ∧ (v : Rat) / (k : Rat) ≤ float32Max := by
  have hv : (0 : Rat) ≤ (v : Rat) := by exact_mod_cast h0
  have hk1 : (1 : Rat) ≤ (k : Rat) := by exact_mod_cast hk
  have hk0 : (0 : Rat) ≤ (k : Rat) := by exact_mod_cast Nat.zero_le k
  have hle : (v : Rat) ≤ ((2 ^ 64 : Int) : Rat) := by exact_mod_cast le_of_lt h64
  have hmax : ((2 ^ 64 : Int) : Rat) ≤ float32Max := by
    have h : (2 ^ 64 : Int) ≤ (((2 ^ 24 - 1) * 2 ^ 104 : Nat) : Int) := by decide
    rw [float32Max]
    exact_mod_cast h
  exact ⟨div_nonneg hv hk0, le_trans (div_le_self hv hk1) (le_trans hle hmax)⟩

theorem observation_inBox {vs : List Int} (h : vs.length = scale.length) (hvs : ∀ v ∈ vs, 0 ≤ v ∧ v < 2 ^ 64) :
    InBox (observation (scaled vs)) := by
  constructor
  · rw [observation, length_take, scaled_length h]; decide
  · intro x hx
    have hmem : x ∈ scaled vs := mem_of_mem_take hx
    obtain ⟨i, hi, rfl⟩ := mem_iff_getElem.mp hmem
    have hscale : ∀ k ∈ scale, 1 ≤ k := by decide
    rw [scaled, length_zipWith] at hi
    simp only [scaled, getElem_zipWith]
    obtain ⟨h0, h64⟩ := hvs _ (getElem_mem (by omega : i < vs.length))
    exact div_scale_bounds h0 h64 (hscale _ (getElem_mem _))

end RlccQuic.Gym.Observation
