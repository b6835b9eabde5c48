/-
  RlccQuic.Transport.Cid — connection IDs and sets of them (`xqc_cid.c`).

  A set is a list in the order of insertion, with counters of its unused, used and retired IDs. Two IDs are equal if
  their bytes are; the sequence number is not compared. `getUnused_spec`: taking an unused ID for use takes one of the
  set and changes no ID of it.
-/

import Mathlib.Data.List.Basic
import RlccQuic.Transport.Defs

namespace RlccQuic.Transport

open List

structure Cid where
  bytes : List UInt8
  seqNum : UInt64
  deriving DecidableEq, Repr

def xqcCidIsEqual (dst src : Cid) : Bool := dst.bytes = src.bytes

inductive CidState where
  | unused
  | used
  | retired
  | removed
  deriving DecidableEq, Repr

/-- The place in the enumeration, which is the order of a connection ID's life. -/
def CidState.rank : CidState → Nat
  | .unused => 0
  | .used => 1
  | .retired => 2
  | .removed => 3

structure CidInner where
  cid : Cid
  state : CidState
  deriving DecidableEq, Repr

inductive CidErr where
  | eactiveCidLimit
  | emalloc
  | econnCidNotFound
  | ecidState
  | econnNoAvailCid
  deriving DecidableEq, Repr

structure CidSet where
  list : List CidInner
  unusedCnt : UInt64
  usedCnt : UInt64
  retiredCnt : UInt64
  deriving DecidableEq, Repr

namespace CidSet

def count (s : CidSet) (state : CidState) : CidSet :=
  match state with
  | .unused => { s with unusedCnt := s.unusedCnt + 1 }
  | .used => { s with usedCnt := s.usedCnt + 1 }
  | .retired => { s with retiredCnt := s.retiredCnt + 1 }
  | .removed => s

def uncount (s : CidSet) (state : CidState) : CidSet :=
  match state with
  | .unused => { s with unusedCnt := s.unusedCnt - 1 }
  | .used => { s with usedCnt := s.usedCnt - 1 }
  | .retired => { s with retiredCnt := s.retiredCnt - 1 }
  | .removed => s

@[simp] lemma count_list (s : CidSet) (state : CidState) : (s.count state).list = s.list := by
  cases state <;> rfl

def xqcCidSetInsertCid (s : CidSet) (cid : Cid) (state : CidState) (limit : UInt64) (memory : Bool) :
    Except CidErr CidSet :=
  if s.unusedCnt + s.usedCnt > limit then .error .eactiveCidLimit
  else if memory = false then .error .emalloc
  else .ok (count { s with list := s.list ++ [⟨cid, state⟩] } state)

def xqcCidInCidSet (s : CidSet) (cid : Cid) : Option CidInner :=
  s.list.find? fun inner => xqcCidIsEqual cid inner.cid

/-- The ID at place `k` of the list moves on to `next`. -/
def xqcCidSwitchToNextState (s : CidSet) (k : Nat) (next : CidState) : Except CidErr CidSet :=
  match s.list[k]? with
  | none => .error .econnCidNotFound
  | some inner =>
    if inner.state = next then .ok s
    else if next.rank < inner.state.rank then .error .ecidState
    else .ok (count { s.uncount inner.state with list := s.list.set k { inner with state := next } } next)

def xqcGetUnusedCid (s : CidSet) : Except CidErr (Cid × CidSet) :=
  if s.unusedCnt = 0 then .error .econnNoAvailCid
  else match s.list.findIdx? fun inner => inner.state = .unused with
    | none => .error .econnNoAvailCid
    | some k =>
      match s.list[k]? with
      | none => .error .econnNoAvailCid
      | some inner => (xqcCidSwitchToNextState s k .used).map fun s => (inner.cid, s)

/-! ## What taking an unused ID does -/

def cids (s : CidSet) : List Cid := s.list.map CidInner.cid

def Active (s : CidSet) : Prop := ∀ inner ∈ s.list, inner.state = .unused ∨ inner.state = .used

lemma set_cids {l : List CidInner} {k : Nat} {inner : CidInner} (hk : l[k]? = some inner) (state : CidState) :
    (l.set k { inner with state }).map CidInner.cid = l.map CidInner.cid := by
  apply ext_getElem?
  intro m
  by_cases hm : k = m
  · subst hm
    obtain ⟨hlt, rfl⟩ := List.getElem?_eq_some_iff.mp hk
    simp [hlt]
  · simp [getElem?_set_ne hm]

theorem getUnused_spec {s s' : CidSet} {cid : Cid} (h : s.xqcGetUnusedCid = .ok (cid, s')) :
    s'.cids = s.cids ∧ cid ∈ s.cids ∧ (s.Active → s'.Active) := by
  unfold xqcGetUnusedCid at h; split at h
  · cases h
  · split at h
    · cases h
    · rename_i k hfind
      split at h
      · cases h
      · rename_i inner hk
        have hstate : inner.state = .unused := by
          obtain ⟨hlt, hp, -⟩ := findIdx?_eq_some_iff_getElem.mp hfind
          obtain ⟨_, rfl⟩ := List.getElem?_eq_some_iff.mp hk
          exact of_decide_eq_true hp
        have hswitch : xqcCidSwitchToNextState s k .used =
            .ok (count { s.uncount .unused with list := s.list.set k { inner with state := .used } } .used) := by
          simp [xqcCidSwitchToNextState, hk, hstate, CidState.rank]
        rw [hswitch] at h
        obtain ⟨rfl, rfl⟩ := Prod.mk.inj (Except.ok.inj h)
        refine ⟨by simp only [count_list]; exact set_cids hk .used, ?_, ?_⟩
        · exact mem_map_of_mem (mem_of_getElem? hk)
        · intro hact i hi
          rcases mem_or_eq_of_mem_set hi with hi | rfl
          · exact hact i hi
          · exact .inr rfl

lemma insert_spec {s s' : CidSet} {cid : Cid} {state : CidState} {limit : UInt64} {memory : Bool}
    (h : s.xqcCidSetInsertCid cid state limit memory = .ok s') : s'.list = s.list ++ [⟨cid, state⟩] := by
  unfold xqcCidSetInsertCid at h; split at h
  · cases h
  · split at h
    · cases h
    · rw [← Except.ok.inj h, count_list]

end CidSet

end RlccQuic.Transport
