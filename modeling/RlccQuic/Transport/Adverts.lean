/-
  RlccQuic.Transport.Adverts — the limits a receiver tells its peer (`xqc_stream.c`: `xqc_stream_do_recv_flow_ctl`,
  `xqc_stream_set_flow_ctl`; `xqc_frame.c`: `xqc_process_data_blocked_frame`, `xqc_process_stream_data_blocked_frame`;
  `xqc_conn.c`: `xqc_conn_handshake_complete`).

  Every limit that is written is what was read plus the window. So limits grow with what is read as long as the window
  does not shrink: it does if it is larger than `XQC_MAX_RECV_WINDOW` and is updated twice within two round trips. The
  window of a connection starts with 32 GiB. The end of the handshake sets the limits of streams back.

  Proved: over every run in which a quick update finds a window that is small enough, no reset takes back what was read,
  no stream is told more before the handshake is complete than its initial limit, and `fc_data_read` stays below 2^63,
  the limits advertised never shrink, and those enforced are not below them (`adverts_never_shrink`). The end of the
  handshake takes a limit back, and so does a second update of the connection's window (`handshake_takes_a_limit_back`).
-/

import RlccQuic.Transport.RecvFlow

namespace RlccQuic.Transport.RecvFlow

open Lib StreamRecv List Function UInt64

/-! ## Adverts -/

def Advert.ofConn : Advert → Option Nat
  | .maxData v => some v.toNat
  | .maxStreamData _ _ => none

def Advert.ofStream (i : Nat) : Advert → Option Nat
  | .maxData _ => none
  | .maxStreamData j v => if j = i then some v.toNat else none

/-- The limit of a stream that the transport parameters tell. -/
def initLimit (n : Net) (type : StreamType) : Nat :=
  (initFlowCtl n.client type n.localSettings 0).fcMaxStreamDataCanRecv.toNat

/-- The limits told for the connection, the first one in the transport parameters. -/
def Net.connAdverts (n : Net) : List Nat := n.localSettings.maxData.toNat :: n.written.filterMap Advert.ofConn

def Net.streamAdverts (n : Net) (i : Nat) : List Nat :=
  initLimit n (n.streams i).type :: n.written.filterMap (Advert.ofStream i)

/-- The limits advertised, and after them the one enforced, never shrink. -/
structure NeverShrink (n : Net) : Prop where
  conn : (n.connAdverts ++ [n.connFlowCtl.fcMaxDataCanRecv.toNat]).Pairwise (· ≤ ·)
  stream : ∀ i < n.next, (n.streamAdverts i ++ [(n.streams i).flowCtl.fcMaxStreamDataCanRecv.toNat]).Pairwise (· ≤ ·)

def Grew (l : List Nat) (a : Nat) (l' : List Nat) (b : Nat) : Prop := a ≤ b ∧ (l' = l ∨ l' = l ++ [b])

lemma Grew.refl (l : List Nat) (a : Nat) : Grew l a l a := ⟨le_rfl, .inl rfl⟩

variable {a b : Nat}

lemma Grew.append {l new : List Nat} (h : Grew [] a new b) : Grew l a (l ++ new) b := by
  obtain ⟨hle, rfl | rfl⟩ := h
  · exact ⟨hle, .inl (append_nil l)⟩
  · exact ⟨hle, .inr rfl⟩

lemma Grew.pairwise {l l' : List Nat} (h : Grew l a l' b) (hl : (l ++ [a]).Pairwise (· ≤ ·)) :
    (l' ++ [b]).Pairwise (· ≤ ·) := by
  obtain ⟨hle, hl'⟩ := h
  rw [pairwise_append] at hl
  obtain ⟨hl, -, ha⟩ := hl
  have hb : (l ++ [b]).Pairwise (· ≤ ·) := by
    refine pairwise_append.mpr ⟨hl, pairwise_singleton _ _, fun x hx y hy => ?_⟩
    rw [mem_singleton.mp hy]; exact (ha x hx a mem_cons_self).trans hle
  rcases hl' with rfl | rfl
  · exact hb
  · refine pairwise_append.mpr ⟨hb, pairwise_singleton _ _, fun x hx y hy => ?_⟩
    rw [mem_singleton.mp hy]
    rcases mem_append.mp hx with hx | hx
    · exact (pairwise_append.mp hb).2.2 x hx b mem_cons_self
    · rw [mem_singleton.mp hx]

/-! ## Windows -/

/-- A window is updated for the second time within two round trips. -/
def Quick (last now srtt : UInt64) : Prop := last ≠ 0 ∧ now - last < 2 * srtt

lemma grownWindow_spec (window last now srtt : UInt64) (hw : window.toNat < 2 ^ 63) :
    (Quick last now srtt ∧ (grownWindow window last now srtt).toNat = min (2 * window.toNat) (2 ^ 24)) ∨
      (¬ Quick last now srtt ∧ grownWindow window last now srtt = window) := by
  unfold grownWindow Quick; split
  · rename_i h; exact .inr ⟨fun hq => hq.1 h, rfl⟩
  · rename_i h
    split
    · rename_i hlt
      refine .inl ⟨⟨h, hlt⟩, ?_⟩
      have hmax : xqcMaxRecvWindow.toNat = 2 ^ 24 := by decide
      have htwo : (2 : UInt64).toNat = 2 := rfl
      rw [Word.toNat_minU64, UInt64.toNat_mul, hmax, htwo]; omega
    · rename_i hge; exact .inr ⟨fun hq => hge hq.2, rfl⟩

/-- A quick update of a window does not shrink it below what the limit needs. -/
def Lasts (limit read : Nat) (window last now srtt : UInt64) : Prop :=
  Quick last now srtt → window.toNat ≤ 2 ^ 25 ∨ limit ≤ read + 2 ^ 24

variable {now srtt : UInt64}

/-- A window that is updated with less than half of it left is still large enough for the
    limit, unless a quick update has made it too small. -/
lemma limit_le_grown {limit read window last : UInt64} (hread : read.toNat < 2 ^ 63)
    (hw : window.toNat < 2 ^ 63) (hroom : limit.toNat ≤ read.toNat + window.toNat) (hleft : limit - read < window / 2)
    (hlasts : Lasts limit.toNat read.toNat window last now srtt) :
    limit.toNat ≤ read.toNat + (grownWindow window last now srtt).toNat := by
  rcases grownWindow_spec window last now srtt hw with ⟨hq, hgrown⟩ | ⟨-, hgrown⟩
  · have hsmall := hlasts hq
    have htwo : (2 : UInt64).toNat = 2 := rfl
    rw [UInt64.lt_iff_toNat_lt, UInt64.toNat_sub, UInt64.toNat_div, htwo] at hleft; omega
  · rw [hgrown]; exact hroom

lemma toNat_raised (limit : UInt64) {read window : UInt64} (hread : read.toNat < 2 ^ 63) (hw : window.toNat < 2 ^ 63) :
    (limit + (window - (limit - read))).toNat = read.toNat + window.toNat := by
  have hsum : ∀ x y z : UInt64, x + (z - (x - y)) = y + z := by grind
  rw [hsum, UInt64.toNat_add]; omega

/-- The limit of a stream is not beyond what was read plus its window. -/
structure StreamRoom (d : DataIn) (fc : StreamFlowCtl) : Prop where
  limit : fc.fcMaxStreamDataCanRecv.toNat ≤ d.nextReadOffset + fc.fcStreamRecvWindowSize.toNat
  window : fc.fcStreamRecvWindowSize.toNat < 2 ^ 62

structure ConnRoom (fc : ConnFlowCtl) : Prop where
  limit : fc.fcMaxDataCanRecv.toNat ≤ fc.fcDataRead.toNat + fc.fcRecvWindowsSize.toNat
  window : fc.fcRecvWindowsSize.toNat < 2 ^ 63
  read : fc.fcDataRead.toNat < 2 ^ 63

def connPart (l : List WindowFrame) : List Nat :=
  l.filterMap fun
    | .maxData v => some v.toNat
    | .maxStreamData _ => none

def streamPart (l : List WindowFrame) : List Nat :=
  l.filterMap fun
    | .maxData _ => none
    | .maxStreamData v => some v.toNat

/-- What becomes of the limits of a stream and its connection, and what is told. -/
structure Told (s t : Stream) : Prop where
  streamRoom : StreamRoom t.dataIn t.flowCtl
  connRoom : ConnRoom t.connFlowCtl
  stream : Grew (streamPart s.written) s.flowCtl.fcMaxStreamDataCanRecv.toNat (streamPart t.written)
    t.flowCtl.fcMaxStreamDataCanRecv.toNat
  conn : Grew (connPart s.written) s.connFlowCtl.fcMaxDataCanRecv.toNat (connPart t.written)
    t.connFlowCtl.fcMaxDataCanRecv.toNat

variable {s : Stream}

lemma raiseStreamWindow_grew (hs : StreamRoom s.dataIn s.flowCtl)
    (hn : s.dataIn.nextReadOffset < 2 ^ 63)
    (hlasts : Lasts s.flowCtl.fcMaxStreamDataCanRecv.toNat s.dataIn.nextReadOffset s.flowCtl.fcStreamRecvWindowSize
      s.flowCtl.fcLastWindowUpdateTime now srtt) :
    (s.raiseStreamWindow now srtt).dataIn = s.dataIn ∧ (s.raiseStreamWindow now srtt).connFlowCtl = s.connFlowCtl ∧
      connPart (s.raiseStreamWindow now srtt).written = connPart s.written ∧
      StreamRoom s.dataIn (s.raiseStreamWindow now srtt).flowCtl ∧
      Grew (streamPart s.written) s.flowCtl.fcMaxStreamDataCanRecv.toNat (streamPart (s.raiseStreamWindow now srtt).written)
        (s.raiseStreamWindow now srtt).flowCtl.fcMaxStreamDataCanRecv.toNat := by
  have hw := hs.window
  have hread : (UInt64.ofNat s.dataIn.nextReadOffset).toNat = s.dataIn.nextReadOffset :=
    toNat_ofNat_of_lt' (Nat.lt_trans hn (by decide))
  have hlimit := hs.limit
  unfold Stream.raiseStreamWindow
  dsimp only; rw [← hread] at hn hlimit hlasts
  generalize UInt64.ofNat s.dataIn.nextReadOffset = read at hread hn hlimit hlasts ⊢
  split
  · rename_i hleft
    have hle := limit_le_grown hn (by omega) hlimit hleft hlasts
    have hgrown := grownWindow_spec s.flowCtl.fcStreamRecvWindowSize s.flowCtl.fcLastWindowUpdateTime now srtt (by omega)
    have hwindow : (grownWindow s.flowCtl.fcStreamRecvWindowSize s.flowCtl.fcLastWindowUpdateTime now srtt).toNat < 2 ^ 62 := by
      rcases hgrown with ⟨-, h⟩ | ⟨-, h⟩
      · omega
      · rw [h]; exact hw
    generalize grownWindow s.flowCtl.fcStreamRecvWindowSize s.flowCtl.fcLastWindowUpdateTime now srtt = window
      at hle hwindow ⊢
    have hraised := toNat_raised s.flowCtl.fcMaxStreamDataCanRecv hn (show window.toNat < 2 ^ 63 by omega)
    refine ⟨rfl, rfl, by simp [connPart], ⟨?_, hwindow⟩, hraised ▸ hle, .inr (by simp [streamPart])⟩
    rw [hraised, hread]
  · exact ⟨rfl, rfl, rfl, hs, .refl _ _⟩

lemma raiseConnWindow_grew (hs : s.flowCtl.fcStreamRecvWindowSize.toNat < 2 ^ 62)
    (hc : ConnRoom s.connFlowCtl)
    (hlasts : Lasts s.connFlowCtl.fcMaxDataCanRecv.toNat s.connFlowCtl.fcDataRead.toNat s.connFlowCtl.fcRecvWindowsSize
      s.connFlowCtl.fcLastWindowUpdateTime now srtt) :
    (s.raiseConnWindow now srtt).dataIn = s.dataIn ∧ (s.raiseConnWindow now srtt).flowCtl = s.flowCtl ∧
      streamPart (s.raiseConnWindow now srtt).written = streamPart s.written ∧
      ConnRoom (s.raiseConnWindow now srtt).connFlowCtl ∧
      Grew (connPart s.written) s.connFlowCtl.fcMaxDataCanRecv.toNat (connPart (s.raiseConnWindow now srtt).written)
        (s.raiseConnWindow now srtt).connFlowCtl.fcMaxDataCanRecv.toNat := by
  have hw := hc.window
  unfold Stream.raiseConnWindow
  dsimp only; split
  · rename_i hleft
    have hle := limit_le_grown hc.read hw hc.limit hleft hlasts
    have hgrown := grownWindow_spec s.connFlowCtl.fcRecvWindowsSize s.connFlowCtl.fcLastWindowUpdateTime now srtt hw
    have hlt : (grownWindow s.connFlowCtl.fcRecvWindowsSize s.connFlowCtl.fcLastWindowUpdateTime now srtt).toNat < 2 ^ 63 := by
      rcases hgrown with ⟨-, h⟩ | ⟨-, h⟩
      · omega
      · rw [h]; exact hw
    generalize grownWindow s.connFlowCtl.fcRecvWindowsSize s.connFlowCtl.fcLastWindowUpdateTime now srtt = grown at hle hlt ⊢
    -- the window is at least the grown one
    obtain ⟨window, hwindow, hge, hlt'⟩ : ∃ window : UInt64,
        (if 2 * grown.toNat < 3 * s.flowCtl.fcStreamRecvWindowSize.toNat then
          UInt64.ofNat (3 * s.flowCtl.fcStreamRecvWindowSize.toNat / 2) else grown) = window ∧
        grown.toNat ≤ window.toNat ∧ window.toNat < 2 ^ 63 := by
      refine ⟨_, rfl, ?_⟩
      split
      · rw [toNat_ofNat', Nat.mod_eq_of_lt (by omega)]; omega
      · exact ⟨le_rfl, hlt⟩
    rw [hwindow]
    have hraised := toNat_raised s.connFlowCtl.fcMaxDataCanRecv hc.read hlt'
    refine ⟨rfl, rfl, by simp [streamPart], ⟨hraised.le, hlt', hc.read⟩, ?_, .inr (by simp [connPart])⟩
    rw [hraised]; omega
  · exact ⟨rfl, rfl, rfl, hc, .refl _ _⟩

lemma doRecvFlowCtl_told (hs : StreamRoom s.dataIn s.flowCtl)
    (hc : ConnRoom s.connFlowCtl) (hn : s.dataIn.nextReadOffset < 2 ^ 63)
    (hstream : Lasts s.flowCtl.fcMaxStreamDataCanRecv.toNat s.dataIn.nextReadOffset s.flowCtl.fcStreamRecvWindowSize
      s.flowCtl.fcLastWindowUpdateTime now srtt)
    (hconn : Lasts s.connFlowCtl.fcMaxDataCanRecv.toNat s.connFlowCtl.fcDataRead.toNat s.connFlowCtl.fcRecvWindowsSize
      s.connFlowCtl.fcLastWindowUpdateTime now srtt) : Told s (xqcStreamDoRecvFlowCtl now srtt s).2 := by
  have herr : Told s (s.connError traFlowControlError) := by
    unfold Stream.connError
    split <;> exact ⟨hs, hc, .refl _ _, .refl _ _⟩
  unfold xqcStreamDoRecvFlowCtl; split
  · exact herr
  split
  · exact herr
  · obtain ⟨hd, hcc, hpart, hroom, hgrew⟩ := raiseStreamWindow_grew hs hn hstream
    generalize s.raiseStreamWindow now srtt = t at hd hcc hpart hroom hgrew ⊢
    obtain ⟨hd', hf', hpart', hroom', hgrew'⟩ := raiseConnWindow_grew hroom.window (hcc ▸ hc) (hcc ▸ hconn)
    refine ⟨?_, hroom', ?_, ?_⟩
    · rw [hd', hf', hd]; exact hroom
    · rw [hpart', hf']; exact hgrew
    · rw [← hpart, ← hcc]; exact hgrew'

/-! ## Reads -/

lemma readFrames_length (h : Held a s) (hr : s.stateRecv.isReset = false) (size : Nat) :
    (readFrames s.dataIn.mergedOffsetEnd size s.dataIn.framesTailq s.dataIn.nextReadOffset []).recvBuf.length =
      readEnd s.dataIn size - s.dataIn.nextReadOffset := by
  obtain ⟨-, -, hlen⟩ := readFrames_blank s.dataIn.mergedOffsetEnd size s.dataIn.framesTailq s.dataIn.nextReadOffset [] [] rfl
  have hreads := readFrames_spec size _ _ [] (h.sound hr)
  have hmerged := h.merged
  have hlt := h.lt
  rw [← hlen, hreads.recvBuf]
  unfold zeros readEnd
  simp only [nil_append, length_take, length_drop, length_replicate, length_nil]; omega

/-- What a read asks of the windows: the bytes read are counted first. -/
structure Reading (size : Nat) (now srtt : UInt64) (s : Stream) : Prop where
  read : s.connFlowCtl.fcDataRead.toNat + (readEnd s.dataIn size - s.dataIn.nextReadOffset) < 2 ^ 63
  stream : Lasts s.flowCtl.fcMaxStreamDataCanRecv.toNat (readEnd s.dataIn size) s.flowCtl.fcStreamRecvWindowSize
    s.flowCtl.fcLastWindowUpdateTime now srtt
  conn : Lasts s.connFlowCtl.fcMaxDataCanRecv.toNat
    (s.connFlowCtl.fcDataRead.toNat + (readEnd s.dataIn size - s.dataIn.nextReadOffset)) s.connFlowCtl.fcRecvWindowsSize
    s.connFlowCtl.fcLastWindowUpdateTime now srtt

lemma recv_told {size : Nat} (h : Held a s) (hr : s.stateRecv.isReset = false)
    (hs : StreamRoom s.dataIn s.flowCtl) (hc : ConnRoom s.connFlowCtl) (hread : Reading size now srtt s) :
    Told s (xqcStreamRecv size now srtt s).2 := by
  have hlen := readFrames_length h hr size
  have hnext := ((h.sound hr).read size).1
  have hcount := hread.read
  have hend : s.dataIn.nextReadOffset ≤ readEnd s.dataIn size ∧ readEnd s.dataIn size < 2 ^ 63 := by
    have h1 := h.next
    have h2 := h.merged
    have h3 := h.lt
    unfold readEnd
    omega
  unfold xqcStreamRecv
  rw [if_neg (by simp [hr])]
  dsimp only
  generalize readFrames s.dataIn.mergedOffsetEnd size s.dataIn.framesTailq s.dataIn.nextReadOffset [] = t at hlen hnext ⊢
  generalize decide (s.dataIn.streamLength > 0 ∧ t.nextReadOffset = s.dataIn.streamLength) = fin
  -- what the read has taken, before flow control
  obtain ⟨u, hu, hdata, hflow, hconn, hwritten⟩ : ∃ u : Stream,
      (if fin = true then (s.taken t).finRead else s.taken t) = u ∧ u.dataIn = (s.taken t).dataIn ∧
        u.flowCtl = s.flowCtl ∧ u.connFlowCtl = (s.taken t).connFlowCtl ∧ u.written = s.written := by
    refine ⟨_, rfl, ?_⟩
    unfold Stream.finRead
    split_ifs <;> exact ⟨rfl, rfl, rfl, rfl⟩
  rw [hu]
  have hcur : u.dataIn.nextReadOffset = readEnd s.dataIn size := by
    rw [hdata]; exact hnext
  have hcounted : u.connFlowCtl.fcDataRead.toNat =
      s.connFlowCtl.fcDataRead.toNat + (readEnd s.dataIn size - s.dataIn.nextReadOffset) := by
    rw [hconn]
    show (s.connFlowCtl.fcDataRead + UInt64.ofNat t.recvBuf.length).toNat = _
    rw [hlen, UInt64.toNat_add, UInt64.toNat_ofNat', Nat.mod_eq_of_lt (a := _ - _) (by omega), Nat.mod_eq_of_lt (by omega)]
  have hus : StreamRoom u.dataIn u.flowCtl := by
    have h1 := hs.limit
    refine ⟨?_, hflow ▸ hs.window⟩
    rw [hflow, hcur]; omega
  have hm : u.connFlowCtl.fcMaxDataCanRecv = s.connFlowCtl.fcMaxDataCanRecv := by rw [hconn]; rfl
  have hw : u.connFlowCtl.fcRecvWindowsSize = s.connFlowCtl.fcRecvWindowsSize := by rw [hconn]; rfl
  have hl : u.connFlowCtl.fcLastWindowUpdateTime = s.connFlowCtl.fcLastWindowUpdateTime := by rw [hconn]; rfl
  have huc : ConnRoom u.connFlowCtl := by
    have h1 := hc.limit
    refine ⟨?_, hw ▸ hc.window, hcounted ▸ hcount⟩
    rw [hm, hw, hcounted]; omega
  have hraised : Told u (xqcStreamDoRecvFlowCtl now srtt u).2 := by
    refine doRecvFlowCtl_told hus huc (by omega) ?_ ?_
    · rw [hflow, hcur]; exact hread.stream
    · rw [hm, hw, hl, hcounted]; exact hread.conn
  have htold : Told s (xqcStreamDoRecvFlowCtl now srtt u).2 := by
    refine ⟨hraised.streamRoom, hraised.connRoom, ?_, ?_⟩
    · rw [← hwritten, ← hflow]; exact hraised.stream
    · rw [← hwritten, ← hm]; exact hraised.conn
  split
  · rename_i hx; rw [hx] at htold; exact htold
  · rename_i hx; rw [hx] at htold
    split <;> exact htold

/-! ## Runs -/

structure Wire (t : TransSettings) : Prop where
  maxData : t.maxData.toNat < 2 ^ 62
  bidiLocal : t.maxStreamDataBidiLocal.toNat < 2 ^ 62
  bidiRemote : t.maxStreamDataBidiRemote.toNat < 2 ^ 62
  uni : t.maxStreamDataUni.toNat < 2 ^ 62

lemma initFlowCtl_room {t : TransSettings} (h : Wire t) (client : Bool) (type : StreamType) (last : UInt64) {d : DataIn} :
    StreamRoom d (initFlowCtl client type t last) := by
  have h1 := h.bidiLocal
  have h2 := h.bidiRemote
  have h3 := h.uni
  cases client <;> cases type <;> exact ⟨Nat.le_add_left _ _, by assumption⟩

def Steady (n : Net) : Ev → Prop
  | .create type => initLimit n type ≤ initLimit n .cliBid
  | .resetStream i size _ =>
    n.IsOpen i → (n.streams i).stateRecv.isReset = false →
      (n.streams i).dataIn.nextReadOffset ≤ size ∧
        n.connFlowCtl.fcDataRead.toNat + (size - (n.streams i).dataIn.nextReadOffset) < 2 ^ 63
  | .handshakeComplete => ∀ i, n.IsOpen i → ∀ v ∈ n.streamAdverts i, v ≤ initLimit n (n.streams i).type
  | .read i size now srtt => n.IsOpen i → (n.streams i).stateRecv.isReset = false → Reading size now srtt (n.view i)
  | _ => True

structure Good (n : Net) : Prop where
  inv : Inv n
  settings : Wire n.localSettings
  connRoom : ConnRoom n.connFlowCtl
  streamRoom : ∀ i < n.next, StreamRoom (n.streams i).dataIn (n.streams i).flowCtl
  told : ∀ j v, .maxStreamData j v ∈ n.written → j < n.next
  shrink : NeverShrink n

variable {n m : Net}

lemma Good.grew (h : Good n) (hinv : Inv m) (hsettings : m.localSettings = n.localSettings)
    (hnext : m.next = n.next) (hconn : ConnRoom m.connFlowCtl)
    (hstream : ∀ i < n.next, StreamRoom (m.streams i).dataIn (m.streams i).flowCtl)
    (htold : ∀ j v, .maxStreamData j v ∈ m.written → j < n.next)
    (hcg : Grew n.connAdverts n.connFlowCtl.fcMaxDataCanRecv.toNat m.connAdverts m.connFlowCtl.fcMaxDataCanRecv.toNat)
    (hsg : ∀ i < n.next, Grew (n.streamAdverts i) (n.streams i).flowCtl.fcMaxStreamDataCanRecv.toNat (m.streamAdverts i)
      (m.streams i).flowCtl.fcMaxStreamDataCanRecv.toNat) : Good m where
  inv := hinv
  settings := hsettings ▸ h.settings
  connRoom := hconn
  streamRoom i hi := hstream i (hnext ▸ hi)
  told j v hj := hnext ▸ htold j v hj
  shrink :=
    { conn := hcg.pairwise h.shrink.conn
      stream := fun i hi => (hsg i (hnext ▸ hi)).pairwise (h.shrink.stream i (hnext ▸ hi)) }

lemma filterMap_ofConn (i : Nat) (l : List WindowFrame) : (l.map (Advert.of i)).filterMap Advert.ofConn = connPart l := by
  rw [filterMap_map]
  congr 1
  funext w
  cases w <;> rfl

lemma filterMap_ofStream (i j : Nat) (l : List WindowFrame) :
    (l.map (Advert.of i)).filterMap (Advert.ofStream j) = if i = j then streamPart l else [] := by
  rw [filterMap_map]; split
  · rename_i hij
    congr 1
    funext w
    cases w with
    | maxData v => rfl
    | maxStreamData v => exact if_pos hij
  · rename_i hij; rw [filterMap_eq_nil_iff]
    intro w _
    cases w with
    | maxData v => rfl
    | maxStreamData v => exact if_neg hij

lemma initLimit_congr (hc : m.client = n.client) (hs : m.localSettings = n.localSettings) (type : StreamType) :
    initLimit m type = initLimit n type := by
  unfold initLimit; rw [hc, hs]

lemma Good.put (h : Good n) {i : Nat} (hi : i < n.next) {t : Stream} (htold : Told (n.view i) t)
    (hinv : Inv m) {o : Own} (hstreams : m.streams = update n.streams i o) (htype : o.type = (n.streams i).type)
    (hdata : o.dataIn = t.dataIn) (hflow : o.flowCtl = t.flowCtl) (hconn : m.connFlowCtl = t.connFlowCtl)
    (hwritten : m.written = n.written ++ t.written.map (Advert.of i)) (hclient : m.client = n.client)
    (hsettings : m.localSettings = n.localSettings) (hnext : m.next = n.next) : Good m := by
  have hself : m.streams i = o := by rw [hstreams, update_self]
  have hothers : ∀ j ≠ i, m.streams j = n.streams j := fun j hj => by rw [hstreams, update_of_ne hj]
  refine h.grew hinv hsettings hnext (hconn ▸ htold.connRoom) (fun j hj => ?_) (fun j v hv => ?_) ?_ fun j hj => ?_
  · by_cases hji : j = i
    · rw [hji, hself, hdata, hflow]; exact htold.streamRoom
    · rw [hothers j hji]; exact h.streamRoom j hj
  · rw [hwritten] at hv
    rcases mem_append.mp hv with hv | hv
    · exact h.told j v hv
    · obtain ⟨w, -, hw⟩ := mem_map.mp hv
      cases w with
      | maxData x => cases hw
      | maxStreamData x =>
        obtain ⟨rfl, -⟩ := Advert.maxStreamData.inj hw
        exact hi
  · unfold Net.connAdverts
    rw [hsettings, hwritten, filterMap_append, filterMap_ofConn, hconn]
    exact htold.conn.append
  · unfold Net.streamAdverts
    rw [hwritten, filterMap_append, filterMap_ofStream, initLimit_congr hclient hsettings]
    by_cases hji : j = i
    · subst hji; rw [if_pos rfl, hself, htype, hflow]; exact htold.stream.append
    · rw [if_neg (Ne.symm hji), append_nil, hothers j hji]; exact .refl _ _

lemma Told.refl (hs : StreamRoom s.dataIn s.flowCtl) (hc : ConnRoom s.connFlowCtl) : Told s s :=
  ⟨hs, hc, .refl _ _, .refl _ _⟩

lemma Took.told {f : StreamFrame} {t : Stream} (h : Took f a b s t) (hs : StreamRoom s.dataIn s.flowCtl)
    (hc : ConnRoom s.connFlowCtl) : Told s t := by
  refine ⟨⟨?_, ?_⟩, ⟨?_, ?_, ?_⟩, ?_, ?_⟩
  · rw [h.flowCtl, h.next]; exact hs.limit
  · rw [h.flowCtl]; exact hs.window
  · rw [h.connFlowCtl]; exact hc.limit
  · rw [h.connFlowCtl]; exact hc.window
  · rw [h.connFlowCtl]; exact hc.read
  · rw [h.flowCtl, h.written]; exact .refl _ _
  · rw [h.connFlowCtl, h.written]; exact .refl _ _

lemma resetStream_told {size : Nat} (hs : StreamRoom s.dataIn s.flowCtl) (hc : ConnRoom s.connFlowCtl)
    (hread : s.stateRecv.isReset = false → s.dataIn.nextReadOffset ≤ size ∧
      s.connFlowCtl.fcDataRead.toNat + (size - s.dataIn.nextReadOffset) < 2 ^ 63) :
    Told s (xqcProcessResetStreamFrame size s) := by
  unfold xqcProcessResetStreamFrame; split
  · exact .refl hs hc
  · rename_i hr
    obtain ⟨hle, hcount⟩ := hread (by simpa using hr)
    have hlimit := hc.limit
    have hcounted : (s.connFlowCtl.fcDataRead + (UInt64.ofNat size - UInt64.ofNat s.dataIn.nextReadOffset)).toNat =
        s.connFlowCtl.fcDataRead.toNat + (size - s.dataIn.nextReadOffset) := by
      rw [UInt64.toNat_add, UInt64.toNat_sub, UInt64.toNat_ofNat', UInt64.toNat_ofNat']
      omega
    refine ⟨⟨hs.limit, hs.window⟩, ⟨?_, hc.window, ?_⟩, .refl _ _, .refl _ _⟩
    · dsimp only; omega
    · dsimp only; rw [hcounted]; exact hcount

lemma Good.createStream (h : Good n) {type : StreamType} (hle : initLimit n type ≤ initLimit n .cliBid) :
    Good (xqcCreateStream type n) := by
  have hold : ∀ j < n.next, (xqcCreateStream type n).streams j = n.streams j :=
    fun j hj => update_of_ne (Nat.ne_of_lt hj) _ _
  have hnew : (xqcCreateStream type n).streams n.next =
      { type, dataIn := ⟨[], 0, 0, 0⟩, stateRecv := .recv, maxRecvOffset := 0
        flowCtl := initFlowCtl n.client .cliBid n.localSettings 0
        closed := false, largest := 0, finalSize := none } := update_self ..
  refine ⟨create_inv h.inv type, h.settings, h.connRoom, fun j hj => ?_, fun j v hv => ?_, h.shrink.conn, fun j hj => ?_⟩
  · rcases Nat.lt_succ_iff_lt_or_eq.mp hj with hj | rfl
    · rw [hold j hj]; exact h.streamRoom j hj
    · rw [hnew]; exact initFlowCtl_room h.settings _ _ _
  · exact Nat.lt_succ_of_lt (h.told j v hv)
  · unfold Net.streamAdverts
    rcases Nat.lt_succ_iff_lt_or_eq.mp hj with hj | rfl
    · rw [hold j hj]; exact h.shrink.stream j hj
    · -- nothing was told for it yet
      have hnone : n.written.filterMap (Advert.ofStream n.next) = [] := by
        rw [filterMap_eq_nil_iff]
        intro a ha
        cases a with
        | maxData v => rfl
        | maxStreamData j v => exact if_neg (Nat.ne_of_lt (h.told j v ha))
      rw [hnew]
      show ((_ :: n.written.filterMap (Advert.ofStream n.next)) ++ _).Pairwise _
      rw [hnone]; exact pairwise_pair.mpr hle

lemma Good.handshakeComplete (h : Good n)
    (hle : ∀ i, n.IsOpen i → ∀ v ∈ n.streamAdverts i, v ≤ initLimit n (n.streams i).type) :
    Good (xqcConnHandshakeComplete n) := by
  have hstream : ∀ i, (xqcConnHandshakeComplete n).streams i =
      if n.IsOpen i then
        { n.streams i with
          flowCtl := initFlowCtl n.client (n.streams i).type n.localSettings (n.streams i).flowCtl.fcLastWindowUpdateTime }
      else n.streams i := fun _ => rfl
  refine ⟨step_inv h.inv .handshakeComplete, h.settings, h.connRoom, fun j hj => ?_, h.told, h.shrink.conn, fun j hj => ?_⟩
  · rw [hstream]; split
    · exact initFlowCtl_room h.settings _ _ _
    · exact h.streamRoom j hj
  · have hsame : (xqcConnHandshakeComplete n).streamAdverts j = n.streamAdverts j := by
      unfold Net.streamAdverts; rw [hstream]
      split <;> rfl
    rw [hsame, hstream]; split
    · rename_i ho
      refine pairwise_append.mpr ⟨(pairwise_append.mp (h.shrink.stream j hj)).1, pairwise_singleton _ _, ?_⟩
      intro v hv w hw; rw [mem_singleton.mp hw]
      exact hle j ho v hv
    · exact h.shrink.stream j hj

lemma Good.dataBlocked (h : Good n) (limit : UInt64) : Good (xqcProcessDataBlockedFrame limit n) := by
  have hroom := h.connRoom.limit
  unfold xqcProcessDataBlockedFrame
  dsimp only; split
  · exact h
  · have hsum : (n.connFlowCtl.fcDataRead + n.connFlowCtl.fcRecvWindowsSize).toNat =
        n.connFlowCtl.fcDataRead.toNat + n.connFlowCtl.fcRecvWindowsSize.toNat := by
      have h1 := h.connRoom.read
      have h2 := h.connRoom.window
      rw [UInt64.toNat_add]; omega
    refine h.grew (h.inv.still ⟨rfl, fun _ => ⟨rfl, rfl, rfl, rfl, rfl⟩, rfl, rfl⟩) rfl rfl
      ⟨hsum.le, h.connRoom.window, h.connRoom.read⟩ h.streamRoom (fun j v hv => ?_) ?_ fun j _ => ?_
    · rcases mem_append.mp hv with hv | hv
      · exact h.told j v hv
      · cases mem_singleton.mp hv
    · refine ⟨hsum ▸ hroom, .inr ?_⟩
      unfold Net.connAdverts; rw [filterMap_append]
      rfl
    · refine ⟨le_rfl, .inl ?_⟩
      unfold Net.streamAdverts; rw [filterMap_append]
      exact congrArg _ (append_nil _)

lemma Good.streamDataBlocked (h : Good n) {i : Nat} (ho : n.IsOpen i) (limit : UInt64) :
    Good (xqcProcessStreamDataBlockedFrame i limit n) := by
  have hi := ho.1
  have hroom := h.streamRoom i hi
  have hheld := h.inv.held i hi
  have hinv := step_inv h.inv (.streamDataBlocked i limit)
  unfold step at hinv
  dsimp only at hinv; rw [if_pos ho] at hinv
  unfold xqcProcessStreamDataBlockedFrame at hinv ⊢
  dsimp only at hinv ⊢; split
  · exact h
  · rename_i hlt; rw [if_neg hlt] at hinv
    have hsum : (UInt64.ofNat (n.streams i).dataIn.nextReadOffset + (n.streams i).flowCtl.fcStreamRecvWindowSize).toNat =
        (n.streams i).dataIn.nextReadOffset + (n.streams i).flowCtl.fcStreamRecvWindowSize.toNat := by
      have h1 : (n.streams i).dataIn.nextReadOffset ≤ (n.streams i).dataIn.mergedOffsetEnd := hheld.next
      have h2 : (n.streams i).dataIn.mergedOffsetEnd ≤ (n.streams i).largest := hheld.merged
      have h3 := hheld.lt
      have h4 := hroom.window
      rw [UInt64.toNat_add, UInt64.toNat_ofNat']; omega
    generalize UInt64.ofNat (n.streams i).dataIn.nextReadOffset + (n.streams i).flowCtl.fcStreamRecvWindowSize = new
      at hinv hsum ⊢
    have htold : Told (n.view i)
        { n.view i with
          flowCtl := { (n.streams i).flowCtl with fcMaxStreamDataCanRecv := new }
          written := [.maxStreamData new] } := by
      refine ⟨⟨hsum.le, hroom.window⟩, h.connRoom, ⟨?_, .inr rfl⟩, .refl _ _⟩
      rw [hsum]; exact hroom.limit
    exact h.put hi htold hinv rfl rfl rfl rfl rfl rfl rfl rfl rfl

lemma step_good (h : Good n) {e : Ev} (hsteady : Steady n e) : Good (step n e) := by
  cases e with
  | create type => exact h.createStream hsteady
  | stream i f =>
    refine ite_open h fun ho => ?_
    have hinv := streamFrame_inv h.inv ho.1 f
    have htold := (h.inv.took ho.1 f).told (h.streamRoom i ho.1) h.connRoom
    rw [noteFrame_eq] at hinv ⊢
    exact h.put ho.1 htold hinv rfl rfl rfl rfl rfl rfl rfl rfl rfl
  | resetStream i size lt =>
    refine ite_open h fun ho => ?_
    have hinv := resetStream_inv h.inv ho.1 size
    have htold : Told (n.view i) (xqcProcessResetStreamFrame size (n.view i)) :=
      resetStream_told (h.streamRoom i ho.1) h.connRoom (hsteady ho)
    rw [noteReset_eq] at hinv ⊢
    exact h.put ho.1 htold hinv rfl rfl rfl rfl rfl rfl rfl rfl rfl
  | dataBlocked limit => exact h.dataBlocked limit
  | streamDataBlocked i limit => exact ite_open h fun ho => h.streamDataBlocked ho limit
  | handshakeComplete => exact h.handshakeComplete hsteady
  | read i size now srtt =>
    refine ite_open h fun ho => ?_
    have htold : Told (n.view i) (xqcStreamRecv size now srtt (n.view i)).2 := by
      cases hr : (n.streams i).stateRecv.isReset with
      | false => exact recv_told (h.inv.held i ho.1) hr (h.streamRoom i ho.1) h.connRoom (hsteady ho hr)
      | true =>
        have hr' : (n.view i).stateRecv.isReset = true := hr
        unfold xqcStreamRecv; rw [if_pos hr']
        exact ⟨h.streamRoom i ho.1, h.connRoom, .refl _ _, .refl _ _⟩
    exact h.put ho.1 htold (read_inv h.inv ho.1 size now srtt) rfl rfl rfl rfl rfl rfl rfl rfl rfl
  | destroy i =>
    refine ite_open h fun ho => ?_
    have hinv := h.inv.still (modify_still (n := n) i (f := ({ · with closed := true })) fun _ => ⟨rfl, rfl, rfl, rfl, rfl⟩)
    have htold : Told (n.view i) (n.view i) := .refl (h.streamRoom i ho.1) h.connRoom
    exact h.put ho.1 htold hinv rfl rfl rfl rfl rfl (append_nil _).symm rfl rfl rfl

lemma Fresh.good (h : Fresh n) (hw : Wire n.localSettings) : Good n := by
  have hlt := hw.maxData
  have hconn := h.connFlowCtl
  refine ⟨h.inv, hw, ?_, fun i hi => ?_, fun j v hv => ?_, ?_, fun i hi => ?_⟩
  · rw [hconn]
    exact ⟨Nat.le_add_left _ _, Nat.lt_trans hlt (by decide), show (0 : UInt64).toNat < 2 ^ 63 by decide⟩
  · exact absurd hi (by rw [h.next]; exact Nat.not_lt_zero i)
  · rw [h.written] at hv; cases hv
  · unfold Net.connAdverts; rw [h.written, hconn]; exact pairwise_pair.mpr le_rfl
  · exact absurd hi (by rw [h.next]; exact Nat.not_lt_zero i)

/-- Over every run of steady steps the limits advertised never shrink, and those enforced
    are not below them. -/
theorem adverts_never_shrink {n0 n : Net} {es : List Ev} (h0 : Fresh n0) (hw : Wire n0.localSettings)
    (h : Run (Guard Steady Step) n0 es n) : NeverShrink n := by
  refine (h.inv (P := Good) ?_ (h0.good hw)).shrink
  rintro n e m hn ⟨hsteady, rfl⟩
  exact step_good hn hsteady

lemma localDefaults_wire : Wire localDefaults := ⟨by decide, by decide, by decide, by decide⟩

/-- A byte is read, and the peer is told a higher limit once it is blocked. -/
theorem blocked_stream_is_told_more :
    ∃ es n, Run (Guard Steady Step) newServer es n ∧ n.streamAdverts 0 = [2 ^ 24, 2 ^ 24 + 1] ∧ NeverShrink n := by
  have hread : Steady (step (step newServer (.create .cliBid)) (.stream 0 (byteAt 0 (by decide)))) (.read 0 100 1 1) :=
    fun _ _ => ⟨by decide, fun hq => absurd (by decide) hq.1, fun hq => absurd (by decide) hq.1⟩
  have hcreate : Steady newServer (.create .cliBid) := le_refl (initLimit newServer .cliBid)
  have hframe : ∀ n f, Steady n (.stream 0 f) := fun _ _ => trivial
  have hblocked : ∀ n, Steady n (.streamDataBlocked 0 0) := fun _ => trivial
  have hrun : Run (Guard Steady Step) newServer _ _ :=
    .cons ⟨hcreate, rfl⟩ (.cons ⟨hframe _ _, rfl⟩ (.cons ⟨hread, rfl⟩ (.cons ⟨hblocked _, rfl⟩ .nil)))
  exact ⟨_, _, hrun, by decide, adverts_never_shrink newServer_fresh localDefaults_wire hrun⟩

/-- The same peer is not granted the limit it was told once the handshake is complete. And
    with two large resets, each followed by a read, the second MAX_DATA is below the
    first. -/
theorem handshake_takes_a_limit_back :
    (∃ es n, Run Step newServer es n ∧ n.streamAdverts 0 = [2 ^ 24, 2 ^ 24 + 1] ∧
      (n.streams 0).flowCtl.fcMaxStreamDataCanRecv.toNat = 2 ^ 24 ∧ ¬ NeverShrink n) ∧
    ∃ es n, Run Step newServer es n ∧
      n.connAdverts = [2 ^ 35, 2 ^ 35 + 2 ^ 34 + 1, 2 ^ 35 + 24 * 2 ^ 20 + 2] ∧ ¬ NeverShrink n := by
  have hshort : Run Step newServer _ _ :=
    .snoc (.snoc (.snoc (.snoc (.snoc .nil (e := .create .cliBid) rfl) (e := .stream 0 (byteAt 0 (by decide))) rfl)
      (e := .read 0 100 1 1) rfl) (e := .streamDataBlocked 0 0) rfl) (e := .handshakeComplete) rfl
  have hlong : Run Step newServer _ _ :=
    .snoc (.snoc (.snoc (.snoc (.snoc (.snoc (.snoc .nil (e := .create .cliBid) rfl) (e := .create .cliBid) rfl)
      (e := .create .cliBid) rfl) (e := .resetStream 0 (2 ^ 34 + 1) (by decide)) rfl) (e := .read 2 100 1000 100) rfl)
      (e := .resetStream 1 (2 ^ 34 + 1) (by decide)) rfl) (e := .read 2 100 1100 100) rfl
  refine ⟨⟨_, _, hshort, by decide, by decide, fun h => ?_⟩, _, _, hlong, by decide, fun h => ?_⟩
  · exact absurd (h.stream 0 (by decide)) (by decide)
  · exact absurd h.conn (by decide)

end RlccQuic.Transport.RecvFlow
