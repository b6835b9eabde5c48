/-
  RlccQuic.Lib.ByteOrder — 32-bit words in memory.

  A host stores a word low byte first or high byte first; the network's order is
  high byte first. `ntohl` reads the bytes of a stored word in network order, and
  converting a word in place is what C code does that overwrites it with the
  result. Proved:
  - `ntohl_load`: what `ntohl` makes of a word in memory is its network value.
  - `convert_convert`: converting in place twice gives the bytes back, so every
    second reader of a buffer that is converted at each read sees the network value.
-/

import Mathlib.Algebra.GroupWithZero.Nat
import Mathlib.Data.List.Induction

namespace RlccQuic.Lib

open List

inductive ByteOrder
  | little
  | big
  deriving DecidableEq, Repr

variable (order : ByteOrder) (w : UInt32) {bs : List UInt8}

namespace ByteOrder

/-- The number whose bytes these are, the first the highest. -/
def beNat (bs : List UInt8) : Nat := bs.foldl (fun n b => 256 * n + b.toNat) 0

def load (order : ByteOrder) (bs : List UInt8) : UInt32 :=
  match order with
  | .big => UInt32.ofNat (beNat bs)
  | .little => UInt32.ofNat (beNat bs.reverse)

def beBytes (w : UInt32) : List UInt8 :=
  [UInt8.ofNat (w.toNat / 2 ^ 24), UInt8.ofNat (w.toNat / 2 ^ 16), UInt8.ofNat (w.toNat / 2 ^ 8),
    UInt8.ofNat w.toNat]

def store (order : ByteOrder) (w : UInt32) : List UInt8 :=
  match order with
  | .big => beBytes w
  | .little => (beBytes w).reverse

/-- The conversion of a word from network order to the host's. -/
def ntohl (order : ByteOrder) (w : UInt32) : UInt32 := load .big (store order w)

/-- The conversion of a word from the host's order to the network's. -/
def htonl (order : ByteOrder) (w : UInt32) : UInt32 := load order (store .big w)

/-- The bytes of a word that was overwritten with its conversion. -/
def convert (order : ByteOrder) (bs : List UInt8) : List UInt8 :=
  store order (ntohl order (load order bs))

@[simp] lemma length_store : (store order w).length = 4 := by
  cases order <;> rfl

lemma beNat_beBytes : beNat (beBytes w) = w.toNat := by
  have := w.toNat_lt
  simp only [beNat, beBytes, foldl_cons, foldl_nil, UInt8.toNat_ofNat']; omega

lemma beNat_lt (bs : List UInt8) : beNat bs < 256 ^ bs.length := by
  induction bs using List.reverseRecOn with
  | nil => simp [beNat]
  | append_singleton bs b ih =>
    have hb := b.toNat_lt
    have hs : beNat (bs ++ [b]) = 256 * beNat bs + b.toNat := by simp [beNat]
    rw [hs, length_append, length_singleton, Nat.pow_succ]; omega

lemma beBytes_beNat (h : bs.length = 4) : beBytes (UInt32.ofNat (beNat bs)) = bs := by
  have hlt : beNat bs < 2 ^ 32 := by simpa [h] using beNat_lt bs
  match bs, h with
  | [b0, b1, b2, b3], _ =>
    have h0 := b0.toNat_lt
    have h1 := b1.toNat_lt
    have h2 := b2.toNat_lt
    have h3 := b3.toNat_lt
    rw [beBytes, UInt32.toNat_ofNat_of_lt' hlt]
    simp only [beNat, foldl_cons, foldl_nil, List.cons.injEq, and_true,
      ← UInt8.toNat_inj, UInt8.toNat_ofNat']
    omega

@[simp] lemma load_store : load order (store order w) = w := by
  cases order <;> simp [load, store, beNat_beBytes]

lemma store_load (h : bs.length = 4) : store order (load order bs) = bs := by
  cases order with
  | big => exact beBytes_beNat h
  | little =>
    have hr : bs.reverse.length = 4 := by rw [length_reverse, h]
    simp only [store, load, beBytes_beNat hr, reverse_reverse]

theorem ntohl_load (h : bs.length = 4) : ntohl order (load order bs) = load .big bs := by
  rw [ntohl, store_load order h]

@[simp] lemma store_htonl : store order (htonl order w) = store .big w :=
  store_load order (length_store .big w)

lemma ntohl_ntohl : ntohl order (ntohl order w) = w := by
  cases order with
  | big => simp only [ntohl, load_store]
  | little =>
    have h : store .little (ntohl .little w) = store .big w := by
      have hs : store .little (load .big (store .little w)) = store .big w := by
        have hl : (store .little w).length = 4 := length_store .little w
        have hb := beBytes_beNat hl
        simp only [store, load] at hb ⊢; rw [hb, reverse_reverse]
      exact hs
    rw [ntohl, h, load_store]

@[simp] lemma length_convert (bs : List UInt8) : (convert order bs).length = 4 :=
  length_store order _

lemma load_convert (h : bs.length = 4) : load .big (convert order bs) = ntohl order (load .big bs) := by
  rw [convert, ntohl_load order h, ntohl]

theorem convert_convert (h : bs.length = 4) : convert order (convert order bs) = bs := by
  rw [convert, ntohl_load order (length_convert order bs), load_convert order h, ← ntohl_load order h,
    ntohl_ntohl, store_load order h]

end ByteOrder

end RlccQuic.Lib
