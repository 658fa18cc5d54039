import FaultInjection.Target

/-!
# Request targets - Parameters and rewrites

A query holds parameters: pieces between ampersands, each a key and a value cut
at the first equals sign, in which a plus stands for a space and a percent sign
with two hexadecimal digits for a byte of UTF-8.  Keys and values are texts of
Unicode scalar values, which UTF-8 writes and reads back.  Parameters are kept in
the order of their first occurrence, each with its last value.

Three rewrites change the path and query of a target: an encoded fragment is
appended to the query, the path is replaced, or parameters are written over
those of the query.  Each builds the text of the new path and query and reads it
as a whole, so that no rewrite makes an ill-formed target.

Main definitions:

- `Parameters`, keys with values in order; `Parameters.set` writes one.
- `Parameters.decode`, the parameters of a query.
- `Parameters.encode`, the query of parameters.
- `Parameters.overlay`, parameters with others written over them.
- `Target.appendQuery`, `Target.replacePath`, `Target.replaceParameters`.

Main results:

- `Parameters.get?_set_self` and `Parameters.get?_set_of_ne`: a write changes its
  own key and no other.
- `Parameters.keys_set`: a write keeps the order of the keys.
-/

namespace FaultInjection

/-- Keys with values, in the order of first occurrence. -/
abbrev Parameters := List (String × String)

namespace Parameters

/-- The parameters with one key written: in place if the key is there, else at the end. -/
def set (key value : String) : Parameters → Parameters
  | [] => [(key, value)]
  | (k, v) :: rest => if k = key then (k, value) :: rest else (k, v) :: set key value rest

/-- The value of a key. -/
def get? (key : String) : Parameters → Option String
  | [] => none
  | (k, v) :: rest => if k = key then some v else get? key rest

/-- The keys in order. -/
def keys (p : Parameters) : List String := p.map Prod.fst

/-- The parameters with others written over them, one after the other. -/
def overlay (p : Parameters) (others : List (String × String)) : Parameters :=
  others.foldl (fun p (key, value) => p.set key value) p

/-- The parameters that a list of writes leaves. -/
def ofPairs (pairs : List (String × String)) : Parameters := overlay [] pairs

/-! ## Decoding -/

/-- A part of an encoded text: a character for itself, or an escaped byte. -/
inductive Symbol where
  | char (c : Char)
  | byte (b : UInt8)
  deriving DecidableEq, Repr

/-- The value of a hexadecimal digit. -/
def hexDigit? (c : Char) : Option Nat :=
  if '0' ≤ c && c ≤ '9' then some (c.toNat - '0'.toNat)
  else if 'a' ≤ c && c ≤ 'f' then some (c.toNat - 'a'.toNat + 10)
  else if 'A' ≤ c && c ≤ 'F' then some (c.toNat - 'A'.toNat + 10)
  else none

/-- The symbols of an encoded text; a percent sign needs two hexadecimal digits. -/
def symbols? : List Char → Option (List Symbol)
  | [] => some []
  | '%' :: a :: b :: rest => do
    let high ← hexDigit? a
    let low ← hexDigit? b
    return .byte (UInt8.ofNat (high * 16 + low)) :: (← symbols? rest)
  | c :: rest =>
    if c = '%' then none
    else do return .char (if c = '+' then ' ' else c) :: (← symbols? rest)

/-- The characters of symbols after a run of bytes, last byte first; runs must be UTF-8. -/
def assemble? (run : Bytes) : List Symbol → Option (List Char)
  | [] => Utf8.decode? run.reverse
  | .byte b :: rest => assemble? (b :: run) rest
  | .char c :: rest => do
    let before ← Utf8.decode? run.reverse
    return before ++ c :: (← assemble? [] rest)

/-- The text that an encoded key or value stands for. -/
def decodeComponent? (cs : List Char) : Option String := do
  return String.ofList (← assemble? [] (← symbols? cs))

/-- The key and value of a piece, both encoded. -/
def cutPiece (piece : List Char) : List Char × List Char :=
  let (key, value) := cutAtFirst '=' piece
  (key, value.getD [])

/-- The parameter that a piece stands for. -/
def decodePiece? (piece : List Char) : Option (String × String) := do
  let (key, value) := cutPiece piece
  return (← decodeComponent? key, ← decodeComponent? value)

/-- The pieces of a query that are not empty. -/
def pieces (query : List Char) : List (List Char) :=
  (piecesAt '&' query).filter (!·.isEmpty)

/-- The parameters of a query, if every piece can be decoded. -/
def decode? (query : String) : Option Parameters := do
  return ofPairs (← (pieces query.toList).mapM decodePiece?)

/-- The parameters of a query, or the fault that a piece is. -/
def decode (query : String) : Except TargetFault Parameters :=
  match decode? query with
  | some p => .ok p
  | none => .error ⟨.malformedQuery, query⟩

/-! ## Encoding -/

/-- Whether a byte is written as the character that it is in ASCII. -/
def isPlainByte (b : UInt8) : Bool :=
  let c := Char.ofNat b.toNat
  b.toNat < 128 && (c.isAlphanum || c == '*' || c == '-' || c == '.' || c == '_')

/-- The upper-case hexadecimal digit of a value below sixteen. -/
def hexDigit (n : Nat) : Char :=
  if n < 10 then Char.ofNat ('0'.toNat + n) else Char.ofNat ('A'.toNat + (n - 10))

/-- The written form of a byte. -/
def encodeByte (b : UInt8) : List Char :=
  if b = 0x20 then ['+']
  else if isPlainByte b then [Char.ofNat b.toNat]
  else ['%', hexDigit (b.toNat / 16), hexDigit (b.toNat % 16)]

/-- The written form of a key or value. -/
def encodeComponent (s : String) : List Char := (utf8Bytes s).flatMap encodeByte

/-- The written form of a parameter. -/
def encodePiece (pair : String × String) : List Char :=
  encodeComponent pair.1 ++ '=' :: encodeComponent pair.2

/-- The query of parameters. -/
def encode (p : Parameters) : String := String.ofList (joinWith '&' (p.map encodePiece))

/-! ## Writes -/

/-- A key that was written has the value written. -/
theorem get?_set_self (p : Parameters) (key value : String) :
    (set key value p).get? key = some value := by
  induction p with
  | nil => simp [set, get?]
  | cons pair rest ih =>
      obtain ⟨k, v⟩ := pair
      by_cases h : k = key <;> simp [set, get?, h, ih]

/-- Writing a key leaves the values of the other keys. -/
theorem get?_set_of_ne (p : Parameters) (key value other : String) (h : other ≠ key) :
    (set key value p).get? other = p.get? other := by
  induction p with
  | nil => simp [set, get?, Ne.symm h]
  | cons pair rest ih =>
      obtain ⟨k, v⟩ := pair
      by_cases hk : k = key
      · subst hk
        simp [set, get?, Ne.symm h]
      · by_cases ho : k = other
        · subst ho
          simp [set, get?, hk]
        · simp [set, get?, hk, ho, ih]

/-- A write keeps the order of the keys and puts a new key at the end. -/
theorem keys_set (p : Parameters) (key value : String) :
    (set key value p).keys = if key ∈ p.keys then p.keys else p.keys ++ [key] := by
  induction p with
  | nil => simp [set, keys]
  | cons pair rest ih =>
      obtain ⟨k, v⟩ := pair
      by_cases hk : k = key
      · simp [set, keys, hk]
      · have hset : keys (set key value ((k, v) :: rest)) = k :: keys (set key value rest) := by
          rw [set, if_neg hk]
          rfl
        have hkeys : keys ((k, v) :: rest) = k :: keys rest := rfl
        rw [hset, ih, hkeys]
        by_cases hm : key ∈ keys rest
        · rw [if_pos hm, if_pos (List.mem_cons_of_mem k hm)]
        · rw [if_neg hm, if_neg (fun h => (List.mem_cons.1 h).elim (Ne.symm hk) hm)]
          rfl

end Parameters

/-! ## Rewrites -/

namespace Target

/-- The target with an encoded fragment at the end of its query; an empty one changes nothing. -/
def appendQuery (t : Target) (fragment : Option String) : Except TargetFault Target :=
  match fragment with
  | none => .ok t
  | some fragment =>
    if fragment = "" then .ok t
    else
      match t.pathAndQuery with
      | none => t.withPathAndQuery ("/?" ++ fragment)
      | some p =>
        let mark := if p.query.isNone then "?" else "&"
        t.withPathAndQuery (p.text ++ mark ++ fragment)

/-- The target with another path and the same query; an empty path is the root.
A target without scheme and path stays as it is. -/
def replacePath (t : Target) (path : Option String) : Except TargetFault Target :=
  match path with
  | none => .ok t
  | some path =>
    if t.pathAndQuery.isNone && t.scheme.isNone then .ok t
    else
      let path := if path = "" then "/" else path
      if path.toList.contains '?' then .error ⟨.queryInPath, path⟩
      else
        match t.pathAndQuery.bind PathAndQuery.query with
        | none => t.withPathAndQuery path
        | some query => t.withPathAndQuery (path ++ "?" ++ query)

/-- The target whose query holds its own parameters with others written over them. -/
def replaceParameters (t : Target) (parameters : Option Parameters) : Except TargetFault Target :=
  match parameters with
  | none => .ok t
  | some parameters => do
    let own ← Parameters.decode ((t.pathAndQuery.bind PathAndQuery.query).getD "")
    let query := (own.overlay parameters).encode
    let path := (t.pathAndQuery.map PathAndQuery.path).getD "/"
    t.withPathAndQuery (if query = "" then path else path ++ "?" ++ query)

end Target

end FaultInjection
