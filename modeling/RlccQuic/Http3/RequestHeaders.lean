/-
  RlccQuic.Http3.RequestHeaders — the header list of a request (`xqc_h3_request.c`).

  Lower-cased names are packed into one buffer. A header of the new list points into it, or at the name it was given.

  Proved: the list is in order, and its length is right exactly if as many headers from the
  start as have a name are as long as those (`headers_are_ordered_iff`).
-/

import Mathlib.Algebra.GroupWithZero.Nat
import Mathlib.Data.List.Basic

namespace RlccQuic.Http3.RequestHeaders

open List

structure Header where
  name : List UInt8
  value : List UInt8
  flags : UInt8
  deriving DecidableEq

def Header.size (h : Header) : UInt64 := (h.name.length + h.value.length).toUInt64

def total (hs : List Header) : UInt64 := hs.foldl (fun n h => n + h.size) 0

def isUpper (c : UInt8) : Bool := 0x41 ≤ c && c ≤ 0x5a

def xqcTolower (c : UInt8) : UInt8 := if isUpper c then c ||| 0x20 else c

def lowered (h : Header) : Header := { h with name := h.name.map xqcTolower }

/-- A header of the new list, with the place of its name in the buffer if it is there. -/
structure Copy where
  src : Header
  base : Option Nat

def Copy.read (buf : List UInt8) (c : Copy) : Header :=
  match c.base with
  | none => c.src
  | some o => { c.src with name := (buf.drop o).take c.src.name.length }

structure Out where
  buf : List UInt8 := []
  headers : List Copy := []
  totalLen : UInt64 := 0

def lowercaseBufSize : Nat := 4096

def xqcH3RequestCopyHeader (src : Header) (buf : List UInt8) : Option (Copy × List UInt8) :=
  if src.name.any isUpper then
    if lowercaseBufSize - buf.length < src.name.length + 1 then none
    else some (⟨src, some buf.length⟩, buf ++ (src.name.map xqcTolower ++ [0]))
  else some (⟨src, none⟩, buf)

def isPseudo (h : Header) : Bool := h.name.head?.any (· == 0x3a)

def isOther (h : Header) : Bool := h.name.head?.any (· != 0x3a)

variable (headers : List Header)

/-- The length that is added is that of `headers[pt]`, not that of the header copied. -/
def copyOne (out : Out) (src : Header) : Option Out :=
  (xqcH3RequestCopyHeader src out.buf).map fun c =>
    ⟨c.2, out.headers ++ [c.1], out.totalLen + (headers[out.headers.length]?.elim 0 Header.size)⟩

def pass (want : Header → Bool) (out : Out) (hs : List Header) : Option Out :=
  hs.foldlM (fun out h => if want h then copyOne headers out h else some out) out

/-- What is handed to `xqc_h3_stream_send_headers`; nothing if a copy fails. -/
def xqcH3RequestSendHeaders : Option Out :=
  (pass headers isPseudo {} headers).bind fun out => pass headers isOther out headers

def ordered : List Header := headers.filter isPseudo ++ headers.filter isOther

structure Right (out : Out) : Prop where
  list : out.headers.map (Copy.read out.buf) = (ordered headers).map lowered
  totalLen : out.totalLen = total (ordered headers)

lemma copy_spec {src : Header} {buf buf' : List UInt8} {c : Copy} (h : xqcH3RequestCopyHeader src buf = some (c, buf')) :
    buf <+: buf' ∧ ∀ {b}, buf' <+: b → c.read b = lowered src := by
  unfold xqcH3RequestCopyHeader at h
  split_ifs at h with hup
  · cases h
    refine ⟨prefix_append _ _, ?_⟩
    rintro _ ⟨more, rfl⟩
    simp [Copy.read, lowered]
  · cases h
    have hsame : src.name.map xqcTolower = src.name := by
      refine (map_congr_left fun c hin => ?_).trans (map_id src.name)
      exact if_neg fun hc => hup (any_eq_true.mpr ⟨c, hin, hc⟩)
    exact ⟨prefix_rfl, fun _ => by rw [lowered, hsame]; rfl⟩

structure Holds (done : List Header) (out : Out) : Prop where
  list : ∀ {b}, out.buf <+: b → out.headers.map (Copy.read b) = done.map lowered
  total : out.totalLen = total (headers.take done.length)

variable {headers}

lemma Holds.copyOne {done : List Header} {out out' : Out} {src : Header} (h : Holds headers done out)
    (hc : copyOne headers out src = some out') : Holds headers (done ++ [src]) out' := by
  obtain ⟨⟨c, buf⟩, hcopy, rfl⟩ := Option.map_eq_some_iff.mp hc
  obtain ⟨hbuf, hread⟩ := copy_spec hcopy
  have hlen : out.headers.length = done.length := by simpa using congrArg length (h.list prefix_rfl)
  constructor
  · intro b hb
    rw [map_append, h.list (hbuf.trans hb), map_append, map_singleton, hread hb]; rfl
  · show _ + _ = _
    rw [hlen, h.total, length_append, length_singleton, take_add_one, RequestHeaders.total, RequestHeaders.total, foldl_append]
    cases headers[done.length]? with
    | none => simp
    | some x => rfl

lemma Holds.pass {want : Header → Bool} {hs done : List Header} {out out' : Out} (h : Holds headers done out)
    (hp : pass headers want out hs = some out') : Holds headers (done ++ hs.filter want) out' := by
  induction hs generalizing done out with
  | nil => cases hp; simpa using h
  | cons x hs ih =>
    obtain ⟨mid, hmid, hrest⟩ := Option.bind_eq_some_iff.mp hp
    dsimp only at hmid
    split_ifs at hmid with hx
    · simpa [hx] using ih (h.copyOne hmid) hrest
    · cases hmid; simpa [hx] using ih h hrest

lemma sent_spec {out : Out} (h : xqcH3RequestSendHeaders headers = some out) : Holds headers (ordered headers) out := by
  obtain ⟨mid, hmid, hrest⟩ := Option.bind_eq_some_iff.mp h
  have hstart : Holds headers [] {} := ⟨fun _ => rfl, rfl⟩
  exact (hstart.pass hmid).pass hrest

variable (headers)

theorem headers_are_ordered_iff : (∀ out, xqcH3RequestSendHeaders headers = some out → Right headers out) ↔
    xqcH3RequestSendHeaders headers = none ∨ total (headers.take (ordered headers).length) = total (ordered headers) := by
  constructor
  · intro h
    cases hs : xqcH3RequestSendHeaders headers with
    | none => exact .inl rfl
    | some out => exact .inr ((sent_spec hs).total.symm.trans (h out hs).totalLen)
  · intro h out hs
    exact ⟨(sent_spec hs).list prefix_rfl, (sent_spec hs).total.trans (h.resolve_left (by simp [hs]))⟩

/-- The length of a header that is left out is counted in place of the one behind it. -/
theorem skipped_header_is_counted : let headers := [⟨[], [1, 2], 0⟩, ⟨[0x61], [], 0⟩]
    ((xqcH3RequestSendHeaders headers).map Out.totalLen, total (ordered headers)) = (some 2, 1) := by
  decide

end RlccQuic.Http3.RequestHeaders
