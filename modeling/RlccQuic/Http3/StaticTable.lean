/-
  RlccQuic.Http3.StaticTable — the static table of field names and values (`qpack/stable/xqc_stable.c`, `xqc_h3_header.c`).

  A header that the static table knows has a type, which `xqc_h3_hdr_type` finds by comparing the name with that of
  each; the type is here the index of the first entry with the name (`xqc_stable_header_idx`). Entries with one name
  follow each other, but for two names that go on further down (`hop`).

  Proved: what a lookup finds is in the table (`stableLookup_sound`).
-/

import RlccQuic.Http3.TableMem

namespace RlccQuic.Http3.StaticTable

open TableMem (RefType)

def bytes (s : String) : List UInt8 := s.toList.map fun c => UInt8.ofNat c.toNat

def stableTexts : List (String × String) :=
  [(":authority", ""), (":path", "/"), ("age", "0"), ("content-disposition", ""), ("content-length", "0"),
   ("cookie", ""), ("date", ""), ("etag", ""), ("if-modified-since", ""), ("if-none-match", ""),
   ("last-modified", ""), ("link", ""), ("location", ""), ("referer", ""), ("set-cookie", ""),
   (":method", "CONNECT"), (":method", "DELETE"), (":method", "GET"), (":method", "HEAD"), (":method", "OPTIONS"),
   (":method", "POST"), (":method", "PUT"), (":scheme", "http"), (":scheme", "https"), (":status", "103"),
   (":status", "200"), (":status", "304"), (":status", "404"), (":status", "503"), ("accept", "*/*"),
   ("accept", "application/dns-message"), ("accept-encoding", "gzip, deflate, br"), ("accept-ranges", "bytes"),
   ("access-control-allow-headers", "cache-control"), ("access-control-allow-headers", "content-type"),
   ("access-control-allow-origin", "*"), ("cache-control", "max-age=0"), ("cache-control", "max-age=2592000"),
   ("cache-control", "max-age=604800"), ("cache-control", "no-cache"), ("cache-control", "no-store"),
   ("cache-control", "public, max-age=31536000"), ("content-encoding", "br"), ("content-encoding", "gzip"),
   ("content-type", "application/dns-message"), ("content-type", "application/javascript"),
   ("content-type", "application/json"), ("content-type", "application/x-www-form-urlencoded"),
   ("content-type", "image/gif"), ("content-type", "image/jpeg"), ("content-type", "image/png"),
   ("content-type", "text/css"), ("content-type", "text/html; charset=utf-8"), ("content-type", "text/plain"),
   ("content-type", "text/plain;charset=utf-8"), ("range", "bytes=0-"),
   ("strict-transport-security", "max-age=31536000"),
   ("strict-transport-security", "max-age=31536000; includesubdomains"),
   ("strict-transport-security", "max-age=31536000; includesubdomains; preload"), ("vary", "accept-encoding"),
   ("vary", "origin"), ("x-content-type-options", "nosniff"), ("x-xss-protection", "1; mode=block"),
   (":status", "100"), (":status", "204"), (":status", "206"), (":status", "302"), (":status", "400"),
   (":status", "403"), (":status", "421"), (":status", "425"), (":status", "500"), ("accept-language", ""),
   ("access-control-allow-credentials", "FALSE"), ("access-control-allow-credentials", "TRUE"),
   ("access-control-allow-headers", "*"), ("access-control-allow-methods", "get"),
   ("access-control-allow-methods", "get, post, options"), ("access-control-allow-methods", "options"),
   ("access-control-expose-headers", "content-length"), ("access-control-request-headers", "content-type"),
   ("access-control-request-method", "get"), ("access-control-request-method", "post"), ("alt-svc", "clear"),
   ("authorization", ""), ("content-security-policy", "script-src 'none'; object-src 'none'; base-uri 'none'"),
   ("early-data", "1"), ("expect-ct", ""), ("forwarded", ""), ("if-range", ""), ("origin", ""),
   ("purpose", "prefetch"), ("server", ""), ("timing-allow-origin", "*"), ("upgrade-insecure-requests", "1"),
   ("user-agent", ""), ("x-forwarded-for", ""), ("x-frame-options", "deny"), ("x-frame-options", "sameorigin")]

def xqcGStaticTable : List (List UInt8 × List UInt8) := stableTexts.map fun e => (bytes e.1, bytes e.2)

def hop (idx : Nat) : Nat := if idx = 28 then 63 else if idx = 34 then 75 else 0

def xqcH3HdrType (name : List UInt8) : Option Nat :=
  let idx := xqcGStaticTable.findIdx fun e => e.1 = name
  if idx < xqcGStaticTable.length then some idx else none

/-- The values from `idx` on, as long as the name is the same. -/
def valueLoop (name value : List UInt8) : Nat → Nat → Option Nat
  | 0, _ => none
  | fuel + 1, idx =>
    match xqcGStaticTable[idx]? with
    | none => none
    | some e =>
      if e.1 ≠ name then none
      else if e.2 = value then some idx
      else valueLoop name value fuel (if hop idx ≠ 0 then hop idx else idx + 1)

def xqcStableLookup (name value : List UInt8) : RefType × Nat :=
  match xqcH3HdrType name with
  | none => (.none, 0)
  | some idx =>
    match valueLoop name value xqcGStaticTable.length idx with
    | some idx => (.nameAndValue, idx)
    | none => (.name, idx)

def xqcStableGetNv (idx : Nat) : Option (List UInt8 × List UInt8) := xqcGStaticTable[idx]?

/-- What the answer says is there is in the static table. -/
def Sound (name value : List UInt8) : RefType × Nat → Prop
  | (.nameAndValue, idx) => xqcStableGetNv idx = some (name, value)
  | (.name, idx) => ∃ v, xqcStableGetNv idx = some (name, v)
  | (.none, _) => True

variable {name value : List UInt8}

lemma hdrType_some {idx : Nat} (h : xqcH3HdrType name = some idx) : ∃ v, xqcStableGetNv idx = some (name, v) := by
  unfold xqcH3HdrType at h
  dsimp only at h; split at h
  · rename_i hlt; cases h
    have hname := List.findIdx_getElem (w := hlt)
    refine ⟨_, (List.getElem?_eq_getElem hlt).trans (congrArg some (Prod.ext ?_ rfl))⟩
    exact of_decide_eq_true hname
  · cases h

lemma valueLoop_some : ∀ (fuel : Nat) {idx found : Nat}, valueLoop name value fuel idx = some found →
    xqcStableGetNv found = some (name, value)
  | 0, _, _, h => by cases h
  | fuel + 1, idx, found, h => by
    unfold valueLoop at h; split at h
    · cases h
    · rename_i e he
      split at h
      · cases h
      · rename_i hname
        split at h
        · rename_i hvalue; cases h
          rw [xqcStableGetNv, he, ← not_not.mp hname, ← hvalue]
        · exact valueLoop_some fuel h

theorem stableLookup_sound (name value : List UInt8) : Sound name value (xqcStableLookup name value) := by
  unfold xqcStableLookup
  cases htype : xqcH3HdrType name with
  | none => trivial
  | some idx =>
    dsimp only
    cases hloop : valueLoop name value xqcGStaticTable.length idx with
    | none => exact hdrType_some htype
    | some found => exact valueLoop_some _ hloop

end RlccQuic.Http3.StaticTable
