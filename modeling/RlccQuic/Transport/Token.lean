/-
  RlccQuic.Transport.Token — the address token of a server (`xqc_conn.c`).

  A token is a family bit, the peer's IP and the second it expires at, in network
  byte order. `xqc_conn_check_token` takes it as const, casts that away and converts
  the expiry where it stands, so the next check of the same buffer converts what
  the last one left. It picks the place to compare in the connection's `sockaddr`
  by the token's family bit and never looks at `sa_family`.
  - `check_eq`: one check of a token with any four expiry bytes.
  - `recheck_eq`: the buffer after any number of checks, by any connections.
  - `token_check_iff`: for which histories a check answers as it should.
  - `second_check_accepts_an_expired_token`: an Initial packet with two CRYPTO
    frames makes a server take an expired token.
-/

import RlccQuic.Lib.ByteOrder
import RlccQuic.Transport.Defs

namespace RlccQuic.Transport.Token

open Lib
open Lib.ByteOrder (load store ntohl htonl convert)

def xqcTokenExpireDelta : UInt64 := 7 * 24 * 60 * 60

def xqcTokenUpdateDelta : UInt64 := xqcTokenExpireDelta / 2

inductive Family
  | inet
  | inet6
  deriving DecidableEq, Repr

/-- What the token code reads of `conn->peer_addr`, a buffer of the size of a `sockaddr_in6`. -/
structure SockAddr where
  family : Family
  /-- Bytes 4 to 8: the IP of a `sockaddr_in`, the flow label of a `sockaddr_in6`. -/
  sinAddr : Vector UInt8 4
  /-- Bytes 8 to 24: the IP of a `sockaddr_in6`; the padding of a `sockaddr_in` and the bytes behind it. -/
  sin6Addr : Vector UInt8 16
  deriving DecidableEq

structure Conn where
  connType : ConnType
  peerAddr : SockAddr
  connToken : List UInt8
  /-- `XQC_CONN_FLAG_TOKEN_OK` -/
  tokenOk : Bool
  /-- `XQC_CONN_FLAG_UPDATE_NEW_TOKEN` -/
  updateNewToken : Bool

inductive Code
  | xqcOk
  | xqcError
  deriving DecidableEq, Repr

/-! ## The code -/

def head (sa : SockAddr) : List UInt8 :=
  match sa.family with
  | .inet => 0x00 :: sa.sinAddr.toList
  | .inet6 => 0x80 :: sa.sin6Addr.toList

/-- `xqc_conn_gen_token`, with the clock in microseconds. -/
def xqcConnGenToken (order : ByteOrder) (now : UInt64) (sa : SockAddr) : List UInt8 :=
  let expire : UInt32 := (now / 1000000 + xqcTokenExpireDelta).toUInt32
  head sa ++ store order (htonl order expire)

structure Checked where
  code : Code
  conn : Conn
  /-- The token's buffer after the call. -/
  token : List UInt8

/-- The end of `xqc_conn_check_token`: the expiry, converted in place. -/
def checkLifetime (order : ByteOrder) (now : UInt64) (conn : Conn) (front pos : List UInt8) : Checked :=
  let expire := ntohl order (load order pos)
  let token := front ++ store order expire
  let now := now / 1000000
  if expire.toUInt64 < now then
    { code := .xqcError, conn, token }
  else if expire.toUInt64 - now ≤ xqcTokenUpdateDelta then
    { code := .xqcOk, conn := { conn with updateNewToken := true }, token }
  else
    { code := .xqcOk, conn, token }

def xqcConnCheckToken (order : ByteOrder) (now : UInt64) (conn : Conn) (token : List UInt8) : Checked :=
  let failed : Checked := { code := .xqcError, conn, token }
  if token.length > xqcMaxTokenLen then
    failed
  else match token with
    | [] => failed
    | v :: pos =>
      if v &&& 0x80 ≠ 0 then
        if token.length ≠ 21 then failed
        else if conn.peerAddr.sin6Addr.toList ≠ pos.take 16 then failed
        else checkLifetime order now conn (v :: pos.take 16) (pos.drop 16)
      else
        if token.length ≠ 9 then failed
        else if conn.peerAddr.sinAddr.toList ≠ pos.take 4 then failed
        else checkLifetime order now conn (v :: pos.take 4) (pos.drop 4)

/-- What `xqc_packet_parse_initial` does with the token of an Initial packet. -/
def saveToken (conn : Conn) (token : List UInt8) : Option Conn :=
  if token.length > xqcMaxTokenLen then none
  else if conn.connType = .server then some { conn with connToken := token }
  else some conn

/-- What `xqc_process_crypto_frame` does with the token, before it parses the frame. -/
def checkOnCryptoFrame (order : ByteOrder) (now : UInt64) (pktType : PktType) (conn : Conn) : Conn :=
  if ¬ conn.tokenOk ∧ conn.connType = .server ∧ pktType = .init then
    let r := xqcConnCheckToken order now conn conn.connToken
    let conn := { r.conn with connToken := r.token }
    if r.code = .xqcOk then { conn with tokenOk := true } else conn
  else
    conn

/-! ## Addresses -/

def SameIp (a b : SockAddr) : Prop :=
  a.family = b.family ∧
    match a.family with
    | .inet => a.sinAddr = b.sinAddr
    | .inet6 => a.sin6Addr = b.sin6Addr

/-- The bytes that stand in `b` where an address of `a`'s family has its IP are `a`'s IP. -/
def LooksLike (a b : SockAddr) : Prop :=
  match a.family with
  | .inet => a.sinAddr = b.sinAddr
  | .inet6 => a.sin6Addr = b.sin6Addr

instance (a b : SockAddr) : Decidable (LooksLike a b) := by
  unfold LooksLike
  split <;> infer_instance

lemma SameIp.looksLike {a b : SockAddr} (h : SameIp a b) : LooksLike a b := h.2

/-! ## One check -/

variable (order : ByteOrder) (now : UInt64) (conn : Conn)

lemma checkLifetime_token (front pos : List UInt8) :
    (checkLifetime order now conn front pos).token = front ++ convert order pos := by
  unfold checkLifetime
  dsimp only; split
  · rfl
  · split <;> rfl

lemma checkLifetime_code (front pos : List UInt8)
    (h : pos.length = 4) :
    (checkLifetime order now conn front pos).code = .xqcOk ↔
      now.toNat / 1000000 ≤ (load .big pos).toNat := by
  have hlt : (load .big pos).toUInt64 < now / 1000000 ↔
      (load .big pos).toNat < now.toNat / 1000000 := by
    rw [UInt64.lt_iff_toNat_lt]; rfl
  unfold checkLifetime; rw [ByteOrder.ntohl_load order h]
  dsimp only; split
  case isTrue he => simp [hlt.mp he]
  case isFalse he =>
    have hle : now.toNat / 1000000 ≤ (load .big pos).toNat := Nat.le_of_not_lt (hlt.not.mp he)
    split <;> simp [hle]

variable {pos : List UInt8}

/-- One check of a token made for `a`, whatever its expiry bytes are by now. -/
theorem check_eq (a : SockAddr)
    (h : pos.length = 4) :
    xqcConnCheckToken order now conn (head a ++ pos) =
      if LooksLike a conn.peerAddr then checkLifetime order now conn (head a) pos
      else { code := .xqcError, conn, token := head a ++ pos } := by
  obtain ⟨family, ip, ip6⟩ := a
  cases family with
  | inet =>
    have hip : conn.peerAddr.sinAddr.toList = ip.toList ↔ ip = conn.peerAddr.sinAddr := by
      rw [Vector.toList_inj, eq_comm]
    refine Eq.trans ?_ (if_congr (Iff.rfl : ip = conn.peerAddr.sinAddr ↔ _) rfl rfl)
    simp [xqcConnCheckToken, xqcMaxTokenLen, head, h, hip]
  | inet6 =>
    have hip : conn.peerAddr.sin6Addr.toList = ip6.toList ↔ ip6 = conn.peerAddr.sin6Addr := by
      rw [Vector.toList_inj, eq_comm]
    refine Eq.trans ?_ (if_congr (Iff.rfl : ip6 = conn.peerAddr.sin6Addr ↔ _) rfl rfl)
    simp [xqcConnCheckToken, xqcMaxTokenLen, head, h, hip]

/-! ## Checks of one buffer -/

/-- One call of `xqc_conn_check_token`: the connection and the clock. -/
structure Call where
  conn : Conn
  now : UInt64

def recheck (order : ByteOrder) (token : List UInt8) (calls : List Call) : List UInt8 :=
  calls.foldl (fun tk c => (xqcConnCheckToken order c.now c.conn tk).token) token

def answer (order : ByteOrder) (token : List UInt8) (earlier : List Call) (c : Call) : Code :=
  (xqcConnCheckToken order c.now c.conn (recheck order token earlier)).code

def conversions (a : SockAddr) (calls : List Call) : Nat :=
  calls.countP fun c => decide (LooksLike a c.conn.peerAddr)

lemma recheck_snoc (token : List UInt8) (calls : List Call) (c : Call) :
    recheck order token (calls ++ [c]) =
      (xqcConnCheckToken order c.now c.conn (recheck order token calls)).token := by
  simp [recheck]

theorem recheck_eq (a : SockAddr) (w : UInt32) (calls : List Call) :
    recheck order (head a ++ store .big w) calls =
      head a ++ if conversions a calls % 2 = 1 then convert order (store .big w) else store .big w := by
  induction calls using List.reverseRecOn with
  | nil => rfl
  | append_singleton calls c ih =>
    rw [recheck_snoc, ih]
    have hlen : ∀ p : Prop, ∀ _ : Decidable p,
        (if p then convert order (store .big w) else store .big w).length = 4 := by
      intro p _
      split
      · exact ByteOrder.length_convert order _
      · exact ByteOrder.length_store .big w
    rw [check_eq order c.now c.conn a (hlen _ _)]
    by_cases hs : LooksLike a c.conn.peerAddr
    · have hcount : conversions a (calls ++ [c]) = conversions a calls + 1 := by
        simp [conversions, hs]
      rw [if_pos hs, checkLifetime_token]
      by_cases hodd : conversions a calls % 2 = 1
      · rw [if_pos hodd, if_neg (by omega), ByteOrder.convert_convert order (ByteOrder.length_store .big w)]
      · rw [if_neg hodd, if_pos (by omega)]
    · have hcount : conversions a (calls ++ [c]) = conversions a calls := by
        simp [conversions, hs]
      rw [if_neg hs, hcount]

/-! ## What a check answers -/

/-- A clock in microseconds whose whole seconds fit in 32 bits. -/
def Clock : Type := { us : UInt64 // us.toNat / 1000000 < 2 ^ 32 }

def Clock.secs (t : Clock) : Nat := t.val.toNat / 1000000

def lapse : Nat := 7 * 24 * 60 * 60

/-- The expiry of a token made at `t`, in the 32 bits it has. -/
def expiry (t : Clock) : UInt32 := UInt32.ofNat (t.secs + lapse)

lemma gen_eq (t : Clock) (a : SockAddr) : xqcConnGenToken order t.val a = head a ++ store .big (expiry t) := by
  have hw : (t.val / 1000000 + xqcTokenExpireDelta).toUInt32 = expiry t := by
    have ht := t.property
    have hsum : (t.val / 1000000 + xqcTokenExpireDelta).toNat = t.secs + lapse := by
      rw [UInt64.toNat_add]
      exact Nat.mod_eq_of_lt (by change t.val.toNat / 1000000 + 604800 < 2 ^ 64; omega)
    rw [← UInt32.toNat_inj, UInt64.toNat_toUInt32, hsum, expiry, UInt32.toNat_ofNat']
  rw [xqcConnGenToken, ByteOrder.store_htonl, hw]

/-- The expiry a check reads after `k` conversions of the buffer. -/
def readExpiry (order : ByteOrder) (t : Clock) (k : Nat) : UInt32 :=
  if k % 2 = 1 then ntohl order (expiry t) else expiry t

lemma answer_ok_iff (a : SockAddr) (t : Clock) (earlier : List Call) (conn : Conn)
    (now : UInt64) :
    answer order (xqcConnGenToken order t.val a) earlier ⟨conn, now⟩ = .xqcOk ↔
      LooksLike a conn.peerAddr ∧
        now.toNat / 1000000 ≤ (readExpiry order t (conversions a earlier)).toNat := by
  have hlen : (store .big (expiry t)).length = 4 := ByteOrder.length_store .big _
  have key : ∀ pos : List UInt8, pos.length = 4 → load .big pos = readExpiry order t (conversions a earlier) →
      ((xqcConnCheckToken order now conn (head a ++ pos)).code = .xqcOk ↔ LooksLike a conn.peerAddr ∧
        now.toNat / 1000000 ≤ (readExpiry order t (conversions a earlier)).toNat) := by
    intro pos hpos hload; rw [check_eq order now conn a hpos]
    by_cases hs : LooksLike a conn.peerAddr
    · rw [if_pos hs, checkLifetime_code order now conn (head a) pos hpos, hload]
      exact (and_iff_right hs).symm
    · simp [hs]
  rw [answer, gen_eq, recheck_eq]
  unfold readExpiry at key ⊢
  by_cases hodd : conversions a earlier % 2 = 1
  · simp only [if_pos hodd] at key ⊢
    refine key _ (ByteOrder.length_convert order _) ?_
    rw [ByteOrder.load_convert order hlen, ByteOrder.load_store]
  · simp only [if_neg hodd] at key ⊢; exact key _ hlen (ByteOrder.load_store .big _)

/-- Exactly one of the two instants is over at `now`. -/
def Between (x y now : Nat) : Prop := min x y < now ∧ now ≤ max x y

lemma not_between_iff {x y now : Nat} : ¬ Between x y now ↔ (now ≤ x ↔ now ≤ y) := by
  unfold Between
  omega

/-- A check of a token that was made for `a` at `t`, after the `earlier` checks of its
    buffer, answers as it should unless the expiry it reads and the true one lie on
    two sides of the clock, or an address of the other family has `a`'s IP where the
    check looks for it. It answers as on a fresh buffer unless an odd number of the
    earlier checks got as far as the expiry and the clock lies between the expiry
    written and its bytes read the other way round. -/
theorem token_check_iff (order : ByteOrder) (a : SockAddr) (t : Clock) (earlier : List Call) (conn : Conn)
    (t' : Clock) :
    ((answer order (xqcConnGenToken order t.val a) earlier ⟨conn, t'.val⟩ = .xqcOk ↔
        SameIp a conn.peerAddr ∧ t'.secs ≤ t.secs + lapse) ↔
      (SameIp a conn.peerAddr →
          ¬ Between (readExpiry order t (conversions a earlier)).toNat (t.secs + lapse) t'.secs) ∧
        (¬ SameIp a conn.peerAddr → LooksLike a conn.peerAddr →
          (readExpiry order t (conversions a earlier)).toNat < t'.secs)) ∧
    (answer order (xqcConnGenToken order t.val a) earlier ⟨conn, t'.val⟩ =
        answer order (xqcConnGenToken order t.val a) [] ⟨conn, t'.val⟩ ↔
      ¬ (LooksLike a conn.peerAddr ∧ conversions a earlier % 2 = 1 ∧
        Between (expiry t).toNat (ntohl order (expiry t)).toNat t'.secs)) := by
  have hans := answer_ok_iff order a t earlier conn t'.val
  have hfresh := answer_ok_iff order a t [] conn t'.val
  have heq : ∀ x y : Code, x = y ↔ (x = .xqcOk ↔ y = .xqcOk) := by
    intro x y
    cases x <;> cases y <;> decide
  have hzero : readExpiry order t (conversions a []) = expiry t := rfl
  rw [hzero] at hfresh
  change _ ↔ _ ∧ t'.secs ≤ _ at hans hfresh
  constructor
  · rw [hans]
    by_cases hsame : SameIp a conn.peerAddr
    · have hlike := hsame.looksLike
      simp only [hsame, hlike, true_and, forall_const, not_true_eq_false, false_imp_iff, and_true]
      exact not_between_iff.symm
    · by_cases hlike : LooksLike a conn.peerAddr
      · simp only [hsame, hlike, true_and, false_and, iff_false, false_imp_iff, not_false_eq_true, forall_const]
        exact Nat.not_le
      · simp [hsame]
  · rw [heq, hans, hfresh]
    by_cases hlike : LooksLike a conn.peerAddr
    · by_cases hodd : conversions a earlier % 2 = 1
      · simp only [hlike, true_and, hodd, readExpiry, if_pos]
        exact not_between_iff.symm.trans (by unfold Between; omega)
      · simp [hodd, readExpiry]
    · simp [hlike]

def loopback : SockAddr := ⟨.inet, #v[127, 0, 0, 1], .replicate 16 0⟩

def newConn : Conn := ⟨.server, loopback, [], false, false⟩

/-- The first second of the clock, and the first second a token made then is expired in. -/
def firstSecond : Clock := ⟨1000000, by decide⟩

def tooLate : Clock := ⟨604802000000, by decide⟩

/-- A token of second 1 expires at second 604801, and the four bytes of that number
    read the other way round are second 2168064256. Of two checks at second 604802
    the first refuses the token and the second takes it; so the server that gets the
    token in an Initial packet with two CRYPTO frames ends with `TOKEN_OK` set. -/
theorem second_check_accepts_an_expired_token :
    let token := xqcConnGenToken .little firstSecond.val loopback
    let check : Call := ⟨newConn, tooLate.val⟩
    answer .little token [] check = .xqcError ∧
      ¬ (answer .little token [check] check = .xqcOk ↔
        SameIp loopback newConn.peerAddr ∧ tooLate.secs ≤ firstSecond.secs + lapse) ∧
      answer .little token [check] check ≠ answer .little token [] check ∧
      (saveToken newConn token).map (fun c =>
        let c := checkOnCryptoFrame .little tooLate.val .init c
        (c.tokenOk, (checkOnCryptoFrame .little tooLate.val .init c).tokenOk)) = some (false, true) := by
  have hlate : ¬ tooLate.secs ≤ firstSecond.secs + lapse := by decide
  have hsecond : answer .little (xqcConnGenToken .little firstSecond.val loopback)
      [⟨newConn, tooLate.val⟩] ⟨newConn, tooLate.val⟩ = .xqcOk := by decide
  refine ⟨by decide, ?_, ?_, by decide⟩
  · intro h; exact hlate (h.mp hsecond).2
  · rw [hsecond]; decide

end RlccQuic.Transport.Token
