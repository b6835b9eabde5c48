/-
  RlccQuic.Transport.NewConnId — NEW_CONNECTION_ID frames (`xqc_frame.c`: `xqc_process_new_conn_id_frame`;
  `xqc_packet_out.c`: `xqc_write_retire_conn_id_frame_to_packet`).

  A frame that raises Retire Prior To makes the code walk over the stored IDs and
  write a RETIRE_CONNECTION_ID frame for each one below the bound. Nothing ever
  moves an ID of the peer on to `XQC_CID_RETIRED`, so a retired ID stays unused or
  used, counts against the limit, and an unused one may be picked as the current ID
  later. The walk comes before the new ID is stored, so a frame that retires the
  only ID is refused.
  - `retireLoop_spec`: what the walk writes, and that it changes no ID.
  - `every_retired_id_was_told`: in every run the peer was told about each stored ID
    below the bound.
  - `retirement_runs`: the rest holds in runs in which no frame retires a stored ID,
    and in no others.
  - `retired_id_becomes_current`: four frames after which the current ID is a retired one.
-/

import Mathlib.Data.List.Induction
import RlccQuic.Lib.Run
import RlccQuic.Lib.Word
import RlccQuic.Transport.Cid

namespace RlccQuic.Transport.NewConnId

open List
open Lib (Meets)
open Lib.Word (maxU64)
open UInt64 (not_lt lt_asymm)

structure Dcids where
  currentDcid : Cid
  cidSet : CidSet
  largestRetirePriorTo : UInt64
  /-- `local_settings.active_connection_id_limit`. -/
  limit : UInt64
  /-- The sequence numbers of the RETIRE_CONNECTION_ID frames written. -/
  written : List UInt64
  deriving DecidableEq, Repr

inductive Ret
  | ok
  | eproto
  | ewritePkt
  | cid (e : CidErr)
  deriving DecidableEq, Repr

structure Frame where
  cid : Cid
  retirePriorTo : UInt64
  deriving DecidableEq, Repr

/-! ## The code -/

def selectCurrent (d : Dcids) (seqNum : UInt64) : Except CidErr Dcids :=
  if seqNum = d.currentDcid.seqNum then
    d.cidSet.xqcGetUnusedCid.map fun r => { d with currentDcid := r.1, cidSet := r.2 }
  else .ok d

/-- `packets` is how many packets can still be written. -/
def xqcWriteRetireConnIdFrameToPacket (packets : Nat) (d : Dcids) (seqNum : UInt64) : Ret × Dcids :=
  match selectCurrent d seqNum with
  | .error e => (.cid e, d)
  | .ok d => if packets = 0 then (.ewritePkt, d) else (.ok, { d with written := d.written ++ [seqNum] })

def retireLoop (retirePriorTo : UInt64) : Nat → List Nat → Dcids → Ret × Dcids
  | _, [], d => (.ok, d)
  | packets, k :: ks, d =>
    match d.cidSet.list[k]? with
    | none => (.ok, d)
    | some inner =>
      if (inner.state = .unused ∨ inner.state = .used) ∧
          d.largestRetirePriorTo ≤ inner.cid.seqNum ∧ inner.cid.seqNum < retirePriorTo then
        let r := xqcWriteRetireConnIdFrameToPacket packets d inner.cid.seqNum
        if r.1 = .ok then retireLoop retirePriorTo (packets - 1) ks r.2 else r
      else retireLoop retirePriorTo packets ks d

def raise (packets : Nat) (d : Dcids) (retirePriorTo : UInt64) : Ret × Dcids :=
  if d.largestRetirePriorTo < retirePriorTo then
    let r := retireLoop retirePriorTo packets (List.range d.cidSet.list.length) d
    if r.1 = .ok then (.ok, { r.2 with largestRetirePriorTo := retirePriorTo }) else r
  else (.ok, d)

def store (memory : Bool) (d : Dcids) (cid : Cid) : Ret × Dcids :=
  if (d.cidSet.xqcCidInCidSet cid).isSome then (.ok, d)
  else match d.cidSet.xqcCidSetInsertCid cid .unused d.limit memory with
    | .error e => (.cid e, d)
    | .ok s => (.ok, { d with cidSet := s })

def xqcProcessNewConnIdFrame (packets : Nat) (memory : Bool) (d : Dcids) (f : Frame) : Ret × Dcids :=
  if f.cid.seqNum < f.retirePriorTo then (.eproto, d)
  else if f.cid.seqNum < d.largestRetirePriorTo then
    xqcWriteRetireConnIdFrameToPacket packets d f.cid.seqNum
  else
    let r := raise packets d f.retirePriorTo
    if r.1 = .ok then store memory r.2 f.cid else r

/-! ## Runs -/

/-- A valid frame, and what the sender and the allocator allow while it is processed. -/
structure Ev where
  frame : Frame
  valid : frame.retirePriorTo ≤ frame.cid.seqNum
  packets : Nat
  memory : Bool

/-- The connection, and the largest Retire Prior To of the frames it got. -/
structure St where
  dcids : Dcids
  seen : UInt64

def Ev.process (e : Ev) (d : Dcids) : Ret × Dcids := xqcProcessNewConnIdFrame e.packets e.memory d e.frame

def step (s : St) (e : Ev) : St := ⟨(e.process s.dcids).2, maxU64 s.seen e.frame.retirePriorTo⟩

def run (s : St) (es : List Ev) : St := es.foldl step s

/-! ## What the walk does -/

/-- From `d` to `d'` some RETIRE_CONNECTION_ID frames were written and the current ID may
    have changed; the bound did not, and no ID was added, dropped or retired. -/
structure Walked (d d' : Dcids) : Prop where
  cids : d'.cidSet.cids = d.cidSet.cids
  bound : d'.largestRetirePriorTo = d.largestRetirePriorTo
  active : d.cidSet.Active → d'.cidSet.Active
  current : d.currentDcid ∈ d.cidSet.cids → d'.currentDcid ∈ d.cidSet.cids
  written : ∀ n ∈ d.written, n ∈ d'.written

lemma Walked.refl (d : Dcids) : Walked d d := ⟨rfl, rfl, id, id, fun _ => id⟩

lemma Walked.trans {a b c : Dcids} (h : Walked a b) (h' : Walked b c) : Walked a c where
  cids := h'.cids.trans h.cids
  bound := h'.bound.trans h.bound
  active := h'.active ∘ h.active
  current hc := h.cids ▸ h'.current (h.cids ▸ h.current hc)
  written n := h'.written n ∘ h.written n

variable {d : Dcids}

lemma selectCurrent_walked {d' : Dcids} {n : UInt64} (h : selectCurrent d n = .ok d') : Walked d d' := by
  unfold selectCurrent at h; split at h
  · cases hg : d.cidSet.xqcGetUnusedCid with
    | error e => rw [hg] at h; cases h
    | ok r =>
      rw [hg] at h
      obtain ⟨hcids, hmem, hact⟩ := CidSet.getUnused_spec hg
      cases h; exact ⟨hcids, rfl, hact, fun _ => hmem, fun _ => id⟩
  · cases h; exact .refl d

variable (packets : Nat)

lemma write_walked (d : Dcids) (n : UInt64) : Walked d (xqcWriteRetireConnIdFrameToPacket packets d n).2 := by
  unfold xqcWriteRetireConnIdFrameToPacket; split
  · exact .refl d
  · rename_i d' hs
    have hw := selectCurrent_walked hs
    split
    · exact hw
    · exact ⟨hw.cids, hw.bound, hw.active, hw.current,
        fun m hm => mem_append_left _ (hw.written m hm)⟩

lemma write_tells {packets : Nat} {n : UInt64}
    (h : (xqcWriteRetireConnIdFrameToPacket packets d n).1 = .ok) :
    n ∈ (xqcWriteRetireConnIdFrameToPacket packets d n).2.written := by
  unfold xqcWriteRetireConnIdFrameToPacket at h ⊢
  cases hs : selectCurrent d n with
  | error e => simp [hs] at h
  | ok d' =>
    by_cases hp : packets = 0
    · simp [hs, hp] at h
    · simp [hp]

lemma getElem?_cid {s : CidSet} {k : Nat} {inner : CidInner} (h : s.list[k]? = some inner) :
    s.cids[k]? = some inner.cid := by
  simp [CidSet.cids, h]

lemma retireLoop_walked (r : UInt64) (packets : Nat) (ks : List Nat) (d : Dcids) :
    Walked d (retireLoop r packets ks d).2 := by
  induction ks generalizing packets d with
  | nil => exact .refl d
  | cons k ks ih =>
    unfold retireLoop; split
    · exact .refl d
    · rename_i inner _
      split
      · dsimp only; split
        · exact (write_walked packets d _).trans (ih _ _)
        · exact write_walked packets d _
      · exact ih packets d

variable {r : UInt64}

/-- A walk that ends well has told the peer about every ID it met between the old bound and the new one. -/
lemma retireLoop_tells {packets : Nat} {ks : List Nat} (hact : d.cidSet.Active)
    (hks : ∀ k ∈ ks, k < d.cidSet.cids.length) (hok : (retireLoop r packets ks d).1 = .ok) {k : Nat}
    (hk : k ∈ ks) {c : Cid} (hc : d.cidSet.cids[k]? = some c) (hlo : d.largestRetirePriorTo ≤ c.seqNum)
    (hhi : c.seqNum < r) : c.seqNum ∈ (retireLoop r packets ks d).2.written := by
  induction ks generalizing packets d with
  | nil => cases hk
  | cons m ks ih =>
    have hm : m < d.cidSet.list.length := by simpa [CidSet.cids] using hks m mem_cons_self
    have hget : d.cidSet.list[m]? = some d.cidSet.list[m] := getElem?_eq_getElem hm
    have htail : ∀ j ∈ ks, j < d.cidSet.cids.length := fun j hj => hks j (mem_cons_of_mem _ hj)
    unfold retireLoop at hok ⊢; rw [hget] at hok ⊢
    dsimp only at hok ⊢; split at hok
    case isTrue hin =>
      rw [if_pos hin]; split at hok
      case isTrue hw =>
        rw [if_pos hw]
        have hwalk := write_walked packets d d.cidSet.list[m].cid.seqNum
        rcases mem_cons.mp hk with rfl | hk
        · have hcid : d.cidSet.list[k].cid = c := Option.some.inj ((getElem?_cid hget).symm.trans hc)
          have htold := write_tells hw
          exact (retireLoop_walked r _ ks _).written _ (hcid ▸ htold)
        · exact ih (hwalk.active hact) (hwalk.cids ▸ htail) hok hk (hwalk.cids ▸ hc) (hwalk.bound ▸ hlo)
      case isFalse hw => exact absurd hok hw
    case isFalse hout =>
      rw [if_neg hout]
      rcases mem_cons.mp hk with rfl | hk
      · have hcid : d.cidSet.list[k].cid = c := Option.some.inj ((getElem?_cid hget).symm.trans hc)
        exact absurd ⟨hact _ (getElem_mem hm), hcid ▸ hlo, hcid ▸ hhi⟩ hout
      · exact ih hact htail hok hk hc hlo

/-! ## What holds in every run -/

structure Inv (d : Dcids) : Prop where
  active : d.cidSet.Active
  current : d.currentDcid ∈ d.cidSet.cids
  told : ∀ c ∈ d.cidSet.cids, c.seqNum < d.largestRetirePriorTo → c.seqNum ∈ d.written

lemma Inv.walked {d' : Dcids} (h : Inv d) (hw : Walked d d') : Inv d' where
  active := hw.active h.active
  current := hw.cids ▸ hw.current h.current
  told c hc hlt := hw.written _ (h.told c (hw.cids ▸ hc) (hw.bound ▸ hlt))

lemma raise_inv (h : Inv d) (r : UInt64) : Inv (raise packets d r).2 := by
  unfold raise; split
  case isFalse => exact h
  case isTrue hlt =>
    have hw := retireLoop_walked r packets (List.range d.cidSet.list.length) d
    dsimp only; split
    case isFalse => exact h.walked hw
    case isTrue hok =>
      have hi := h.walked hw
      refine ⟨hi.active, hi.current, fun c hc hc' => ?_⟩
      have hc : c ∈ d.cidSet.cids := hw.cids ▸ hc
      by_cases hold : c.seqNum < d.largestRetirePriorTo
      · exact hw.written _ (h.told c hc hold)
      · obtain ⟨k, hk⟩ := getElem?_of_mem hc
        have hlen : k < d.cidSet.cids.length := (List.getElem?_eq_some_iff.mp hk).1
        have hrange : ∀ j ∈ List.range d.cidSet.list.length, j < d.cidSet.cids.length := by
          simp [CidSet.cids]
        exact retireLoop_tells h.active hrange hok (by simpa [CidSet.cids] using hlen) hk
          (not_lt.mp hold) hc'

lemma raise_bound {packets : Nat} (hok : (raise packets d r).1 = .ok) :
    (raise packets d r).2.largestRetirePriorTo = maxU64 d.largestRetirePriorTo r := by
  unfold raise at hok ⊢
  by_cases hlt : d.largestRetirePriorTo < r
  · rw [if_pos hlt] at hok ⊢
    dsimp only at hok ⊢; split at hok
    case isTrue hl =>
      rw [if_pos hl, maxU64, if_neg (lt_asymm hlt)]
    case isFalse hl => exact absurd hok hl
  · have hle := not_lt.mp hlt
    rw [if_neg hlt, maxU64]; split
    case isTrue => rfl
    case isFalse hn => exact UInt64.le_antisymm (not_lt.mp hn) hle

lemma raise_cids (d : Dcids) (r : UInt64) : (raise packets d r).2.cidSet.cids = d.cidSet.cids := by
  have hw := retireLoop_walked r packets (List.range d.cidSet.list.length) d
  unfold raise
  dsimp only; split
  · split <;> exact hw.cids
  · rfl

lemma store_cases (memory : Bool) (d : Dcids) (cid : Cid) :
    (store memory d cid).2 = d ∨
      ∃ s : CidSet, s.list = d.cidSet.list ++ [⟨cid, .unused⟩] ∧ (store memory d cid).2 = { d with cidSet := s } := by
  unfold store; split
  · exact .inl rfl
  · split
    · exact .inl rfl
    · rename_i s hs; exact .inr ⟨s, CidSet.insert_spec hs, rfl⟩

lemma store_inv (memory : Bool) (h : Inv d) {cid : Cid} (hc : d.largestRetirePriorTo ≤ cid.seqNum) :
    Inv (store memory d cid).2 := by
  rcases store_cases memory d cid with he | ⟨s, hs, he⟩
  · rw [he]; exact h
  · rw [he]
    have hcids : s.cids = d.cidSet.cids ++ [cid] := by simp [CidSet.cids, hs]
    refine ⟨?_, ?_, ?_⟩
    · intro i hi
      rcases mem_append.mp (hs ▸ hi) with hi | hi
      · exact h.active i hi
      · exact .inl (mem_singleton.mp hi ▸ rfl)
    · exact hcids ▸ mem_append_left _ h.current
    · intro c hc' hlt
      rcases mem_append.mp (hcids ▸ hc') with hc' | hc'
      · exact h.told c hc' hlt
      · exact absurd (mem_singleton.mp hc' ▸ hlt) (not_lt.mpr hc)

lemma process_inv (h : Inv d) (e : Ev) : Inv (e.process d).2 := by
  unfold Ev.process xqcProcessNewConnIdFrame; rw [if_neg (not_lt.mpr e.valid)]
  split
  case isTrue => exact h.walked (write_walked _ _ _)
  case isFalse hle =>
    have hr := raise_inv e.packets h e.frame.retirePriorTo
    dsimp only; split
    case isTrue hok =>
      refine store_inv e.memory hr ?_
      rw [raise_bound hok, maxU64]; split
      · exact not_lt.mp hle
      · exact e.valid
    case isFalse => exact hr

lemma run_snoc (s : St) (es : List Ev) (e : Ev) : run s (es ++ [e]) = step (run s es) e := by
  simp [run]

variable {s : St}

/-- In every run, whatever fails on the way, a RETIRE_CONNECTION_ID frame was written for
    every stored ID below the bound. -/
theorem every_retired_id_was_told (h : Inv s.dcids) (es : List Ev) : Inv (run s es).dcids := by
  induction es using List.reverseRecOn with
  | nil => exact h
  | append_singleton es e ih => rw [run_snoc]; exact process_inv ih e

/-! ## Runs that retire nothing -/

/-- No stored ID is below the frame's Retire Prior To. -/
def Spares (d : Dcids) (f : Frame) : Prop := ∀ c ∈ d.cidSet.cids, f.retirePriorTo ≤ c.seqNum

def Careful (s : St) (es : List Ev) : Prop := Meets (fun s e => Spares s.dcids e.frame) step s es

/-- Every stored ID below the largest Retire Prior To is retired, the peer was told, and
    the current ID is none of them. -/
def Retired (s : St) : Prop :=
  (∀ inner ∈ s.dcids.cidSet.list, inner.cid.seqNum < s.seen →
    inner.cid.seqNum ∈ s.dcids.written ∧ inner.state ≠ .unused ∧ inner.state ≠ .used) ∧
    s.seen ≤ s.dcids.currentDcid.seqNum

structure Fine (s : St) : Prop where
  inv : Inv s.dcids
  seen : s.seen = s.dcids.largestRetirePriorTo
  above : ∀ c ∈ s.dcids.cidSet.cids, s.dcids.largestRetirePriorTo ≤ c.seqNum

lemma Fine.retired (h : Fine s) : Retired s := by
  have habove : ∀ c ∈ s.dcids.cidSet.cids, s.seen ≤ c.seqNum := h.seen ▸ h.above
  refine ⟨fun inner hi hlt => ?_, habove _ h.inv.current⟩
  exact absurd hlt (not_lt.mpr (habove _ (mem_map_of_mem hi)))

lemma retireLoop_idle (h : ∀ c ∈ d.cidSet.cids, r ≤ c.seqNum) (packets : Nat)
    (ks : List Nat) : retireLoop r packets ks d = (.ok, d) := by
  induction ks with
  | nil => rfl
  | cons k ks ih =>
    unfold retireLoop; split
    · rfl
    · rename_i inner hget
      have hge := h inner.cid (mem_map_of_mem (mem_of_getElem? hget))
      rw [if_neg (fun hin => not_lt.mpr hge hin.2.2), ih]

lemma raise_idle {packets : Nat} (h : ∀ c ∈ d.cidSet.cids, r ≤ c.seqNum) :
    raise packets d r = (.ok, { d with largestRetirePriorTo := maxU64 d.largestRetirePriorTo r }) := by
  have hok : (raise packets d r).1 = .ok := by
    unfold raise; rw [retireLoop_idle h]
    split <;> rfl
  have hb := raise_bound hok
  unfold raise at hb ⊢; rw [retireLoop_idle h] at hb ⊢
  split
  case isTrue hlt =>
    rw [if_pos hlt] at hb
    exact congrArg (fun n => (Ret.ok, { d with largestRetirePriorTo := n })) hb
  case isFalse hlt =>
    rw [if_neg hlt] at hb
    exact congrArg (fun n => (Ret.ok, { d with largestRetirePriorTo := n })) hb

lemma step_fine (h : Fine s) {e : Ev} (hs : Spares s.dcids e.frame) : Fine (step s e) := by
  have hinv : Inv (step s e).dcids := process_inv h.inv e
  by_cases hold : e.frame.cid.seqNum < s.dcids.largestRetirePriorTo
  · have hproc : e.process s.dcids =
        xqcWriteRetireConnIdFrameToPacket e.packets s.dcids e.frame.cid.seqNum := by
      unfold Ev.process xqcProcessNewConnIdFrame
      rw [if_neg (not_lt.mpr e.valid), if_pos hold]
    have hw : Walked s.dcids (step s e).dcids := by
      unfold step; rw [hproc]
      exact write_walked _ _ _
    have hseen : (step s e).seen = s.seen := by
      have hlt : e.frame.retirePriorTo < s.seen := h.seen ▸ UInt64.lt_of_le_of_lt e.valid hold
      exact if_pos hlt
    refine ⟨hinv, ?_, ?_⟩
    · rw [hseen, hw.bound, h.seen]
    · rw [hw.bound, hw.cids]; exact h.above
  · have hproc : e.process s.dcids = store e.memory
        { s.dcids with largestRetirePriorTo := maxU64 s.dcids.largestRetirePriorTo e.frame.retirePriorTo }
        e.frame.cid := by
      unfold Ev.process xqcProcessNewConnIdFrame
      rw [if_neg (not_lt.mpr e.valid), if_neg hold, raise_idle hs]; exact if_pos rfl
    have hle : ∀ c : Cid, s.dcids.largestRetirePriorTo ≤ c.seqNum → e.frame.retirePriorTo ≤ c.seqNum →
        maxU64 s.dcids.largestRetirePriorTo e.frame.retirePriorTo ≤ c.seqNum := by
      intro c h1 h2; unfold maxU64
      split
      · exact h1
      · exact h2
    rcases store_cases e.memory { s.dcids with
        largestRetirePriorTo := maxU64 s.dcids.largestRetirePriorTo e.frame.retirePriorTo } e.frame.cid
      with he | ⟨l, hl, he⟩
    all_goals
      rw [← hproc] at he
      have hd : (step s e).dcids = (e.process s.dcids).2 := rfl
      refine ⟨hinv, ?_, ?_⟩
      · rw [hd, he]; exact congrArg (maxU64 · e.frame.retirePriorTo) h.seen
    · rw [hd, he]; exact fun c hc => hle c (h.above c hc) (hs c hc)
    · rw [hd, he]
      have hcids : l.cids = s.dcids.cidSet.cids ++ [e.frame.cid] := by simp [CidSet.cids, hl]
      intro c hc
      rcases mem_append.mp (hcids ▸ hc) with hc | hc
      · exact hle c (h.above c hc) (hs c hc)
      · rw [mem_singleton.mp hc]; exact hle _ (not_lt.mp hold) e.valid

lemma run_fine (h : Fine s) {es : List Ev} (hc : Careful s es) : Fine (run s es) := by
  induction es generalizing s with
  | nil => exact h
  | cons e es ih => exact ih (step_fine h hc.1) hc.2

lemma step_not_retired (h : Fine s) {e : Ev} (hs : ¬ Spares s.dcids e.frame) : ¬ Retired (step s e) := by
  obtain ⟨c, hc, hlt⟩ : ∃ c ∈ s.dcids.cidSet.cids, c.seqNum < e.frame.retirePriorTo := by
    simpa [Spares] using hs
  have hraised : s.dcids.largestRetirePriorTo < e.frame.retirePriorTo :=
    UInt64.lt_of_le_of_lt (h.above c hc) hlt
  have hseen : (step s e).seen = e.frame.retirePriorTo := by
    refine if_neg (lt_asymm ?_)
    rw [h.seen]; exact hraised
  have hmem : c ∈ (step s e).dcids.cidSet.cids := by
    have hbig : ¬ e.frame.cid.seqNum < s.dcids.largestRetirePriorTo :=
      fun hn => lt_asymm hraised (UInt64.lt_of_le_of_lt e.valid hn)
    unfold step Ev.process xqcProcessNewConnIdFrame
    rw [if_neg (not_lt.mpr e.valid), if_neg hbig]
    dsimp only
    have hr := raise_cids e.packets s.dcids e.frame.retirePriorTo
    split
    · rcases store_cases e.memory (raise e.packets s.dcids e.frame.retirePriorTo).2 e.frame.cid
        with he | ⟨l, hl, he⟩
      · rw [he, hr]; exact hc
      · rw [he]
        have hcids : l.cids = s.dcids.cidSet.cids ++ [e.frame.cid] := by
          rw [← hr]
          simp [CidSet.cids, hl]
        exact hcids ▸ mem_append_left _ hc
    · exact hr ▸ hc
  intro hret
  obtain ⟨inner, hi, rfl⟩ := mem_map.mp hmem
  have hstate := (hret.1 inner hi (hseen ▸ hlt)).2
  rcases (process_inv h.inv e).active inner hi with hu | hu
  · exact hstate.1 hu
  · exact hstate.2 hu

/-- A connection that got no NEW_CONNECTION_ID frame yet. -/
structure Start (s : St) : Prop where
  active : s.dcids.cidSet.Active
  current : s.dcids.currentDcid ∈ s.dcids.cidSet.cids
  bound : s.dcids.largestRetirePriorTo = 0
  seen : s.seen = 0

lemma Start.fine (h : Start s) : Fine s := by
  have hz : ∀ n : UInt64, ¬ n < 0 := fun n => not_lt.mpr (UInt64.zero_le)
  refine ⟨⟨h.active, h.current, fun c _ hlt => ?_⟩, h.seen.trans h.bound.symm, fun c _ => ?_⟩
  · rw [h.bound] at hlt; exact absurd hlt (hz _)
  · rw [h.bound]; exact not_lt.mp (hz _)

/-- In every run of valid frames a RETIRE_CONNECTION_ID frame was written for every stored
    ID below the bound. In a run in which no frame retires a stored ID, retired IDs are no
    longer counted and the current ID is not below the largest Retire Prior To; the first
    frame that does retire a stored ID ends this. -/
theorem retirement_runs {s : St} (h : Start s) (es : List Ev) :
    (∀ c ∈ (run s es).dcids.cidSet.cids, c.seqNum < (run s es).dcids.largestRetirePriorTo →
      c.seqNum ∈ (run s es).dcids.written) ∧
    (Careful s es → Retired (run s es) ∧
      ∀ e : Ev, Retired (step (run s es) e) ↔ Spares (run s es).dcids e.frame) := by
  refine ⟨(every_retired_id_was_told h.fine.inv es).told, fun hc => ?_⟩
  have hf := run_fine h.fine hc
  refine ⟨hf.retired, fun e => ⟨fun hr => ?_, fun hs => (step_fine hf hs).retired⟩⟩
  by_contra hs
  exact step_not_retired hf hs hr

/-- A server after the handshake: the client's ID, with sequence number 0. -/
def newConn : St :=
  ⟨⟨⟨[2], 0⟩, ⟨[⟨⟨[2], 0⟩, .used⟩], 0, 1, 0⟩, 0, 8, []⟩, 0⟩

def frame (seqNum retirePriorTo : UInt64) (h : retirePriorTo ≤ seqNum) : Ev :=
  ⟨⟨⟨[100 + seqNum.toUInt8], seqNum⟩, retirePriorTo⟩, h, 10, true⟩

/-- The same, where the stored ID has sequence number 2. -/
def laterConn : St :=
  ⟨⟨⟨[2], 2⟩, ⟨[⟨⟨[2], 2⟩, .used⟩], 0, 1, 0⟩, 0, 8, []⟩, 0⟩

lemma newConn_start : Start newConn := by
  refine ⟨?_, by decide, rfl, rfl⟩
  intro i hi; rw [mem_singleton.mp hi]
  exact .inr rfl

lemma laterConn_start : Start laterConn := by
  refine ⟨?_, by decide, rfl, rfl⟩
  intro i hi; rw [mem_singleton.mp hi]
  exact .inr rfl

/-- Frames that retire nothing that is stored may go on as long as they like. -/
theorem two_new_ids :
    (Retired (run newConn [frame 1 0 (by decide)]) ∧
      (Retired (step (run newConn [frame 1 0 (by decide)]) (frame 2 1 (by decide))) ↔
        Spares (run newConn [frame 1 0 (by decide)]).dcids (frame 2 1 (by decide)).frame)) ∧
      Retired (run laterConn [frame 3 2 (by decide)]) := by
  have hcareful : Careful newConn [frame 1 0 (by decide)] := ⟨fun _ _ => UInt64.zero_le, trivial⟩
  have hrun := (retirement_runs newConn_start [frame 1 0 (by decide)]).2 hcareful
  have hlater : Careful laterConn [frame 3 2 (by decide)] := ⟨by unfold Spares; decide, trivial⟩
  exact ⟨⟨hrun.1, hrun.2 _⟩, ((retirement_runs laterConn_start [frame 3 2 (by decide)]).2 hlater).1⟩

/-- IDs 2 and 1 come in this order; a frame retires what is below 2 and the next one what
    is below 3. All four frames are accepted, ID 0 still counts as used, and the current ID
    is 1, which the third frame retired. A first frame that retires the only ID and brings
    a new one is refused. -/
theorem retired_id_becomes_current :
    let es := [frame 2 0 (by decide), frame 1 0 (by decide), frame 3 2 (by decide)]
    let last := frame 4 3 (by decide)
    (last.process (run newConn es).dcids).1 = .ok ∧
      (run newConn (es ++ [last])).dcids.currentDcid.seqNum = 1 ∧
      (run newConn (es ++ [last])).dcids.cidSet.list.head? = some ⟨⟨[2], 0⟩, .used⟩ ∧
      ¬ Retired (run newConn (es ++ [last])) ∧
      ((frame 1 1 (by decide)).process newConn.dcids).1 = .cid .econnNoAvailCid := by
  refine ⟨by decide, by decide, by decide, ?_, by decide⟩
  intro h; exact absurd h.2 (by decide)

end RlccQuic.Transport.NewConnId
