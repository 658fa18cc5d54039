import FaultInjection.Proofs.Target.Parameters
import FaultInjection.Proofs.Target.WellFormed

/-!
# Request targets - Queries that are written and read back

Parameters come back from the query that they are written to, whatever their keys and values
are, and the query is one that any path can be asked for with.  So a query that is read and
written once has its final form.

Main definitions:

- `Parameters.isWritten`, the characters that queries are written with.
- `Parameters.rewrite`, a query that is read and written again.

Main results:

- `Parameters.encode_eq_empty_iff`: only without parameters there is nothing to write.
- `Parameters.isWritten_of_mem_encode`: a query is written with few characters.
- `PathAndQuery.parse_append_query`: a query can stand behind a path.
- `Parameters.decode_encode`: parameters come back as they were.
- `Parameters.readsBack`: all of this together.
-/

namespace FaultInjection

/-- The members of pieces with a mark between them are the mark and those of the pieces. -/
theorem eq_or_exists_of_mem_joinWith {α : Type} {mark c : α} {pieces : List (List α)}
    (h : c ∈ joinWith mark pieces) : c = mark ∨ ∃ piece ∈ pieces, c ∈ piece := by
  fun_induction joinWith mark pieces with
  | case1 => cases h
  | case2 piece => exact .inr ⟨piece, List.mem_singleton_self piece, h⟩
  | case3 piece rest hrest ih =>
      rw [List.mem_append, List.mem_cons] at h
      rcases h with hpiece | hmark | hmore
      · exact .inr ⟨piece, List.mem_cons_self, hpiece⟩
      · exact .inl hmark
      · rcases ih hmore with hmark | ⟨other, hother, hmem⟩
        · exact .inl hmark
        · exact .inr ⟨other, List.mem_cons_of_mem piece hother, hmem⟩

namespace Parameters

/-! ## Characters of a written query -/

/-- Whether a character is one that queries are written with: a letter or digit of ASCII, or one of
a few marks. -/
def isWritten (c : Char) : Bool :=
  c.isAlphanum || ['*', '-', '.', '_', '+', '%', '&', '='].contains c

/-- A byte is written with such characters. -/
theorem all_isWritten_encodeByte : ∀ b : UInt8, (encodeByte b).all isWritten = true :=
  QueryBytes.forall_byte (by decide +kernel)

/-- A text is written with such characters. -/
theorem isWritten_of_mem_encodeComponent {s : String} {c : Char} (hc : c ∈ encodeComponent s) :
    isWritten c = true := by
  obtain ⟨b, -, hb⟩ := List.mem_flatMap.1 hc
  exact List.all_eq_true.1 (all_isWritten_encodeByte b) c hb

/-- A query is written with such characters. -/
theorem isWritten_of_mem_encode {p : Parameters} {c : Char} (hc : c ∈ p.encode.toList) :
    isWritten c = true := by
  rw [encode, String.toList_ofList] at hc
  rcases eq_or_exists_of_mem_joinWith hc with rfl | ⟨piece, hpiece, hmem⟩
  · decide
  · obtain ⟨pair, -, rfl⟩ := List.mem_map.1 hpiece
    rw [encodePiece, List.mem_append, List.mem_cons] at hmem
    rcases hmem with hkey | rfl | hvalue
    · exact isWritten_of_mem_encodeComponent hkey
    · decide
    · exact isWritten_of_mem_encodeComponent hvalue

/-- Such a character may stand in a path and query. -/
theorem isAllowed_of_isWritten {c : Char} (h : isWritten c = true) :
    PathAndQuery.isAllowed c = true := by
  rw [isWritten, Bool.or_eq_true, List.contains_iff_mem] at h
  rcases h with hletter | hmark
  · have hcode := toNat_of_isAlphanum hletter
    rw [PathAndQuery.isAllowed_iff]
    omega
  · have hmarks : ['*', '-', '.', '_', '+', '%', '&', '='].all PathAndQuery.isAllowed = true := by
      decide
    exact List.all_eq_true.1 hmarks c hmark

end Parameters

/-! ## Written queries -/

/-- A path that is read without a query is read with any query of characters that may stand in one,
unless it is the asterisk. -/
theorem PathAndQuery.parse_append_query {path query : String}
    (hpath : parse path = .ok ⟨path, none⟩) (hstar : path ≠ "*")
    (hquery : ∀ c ∈ query.toList, isAllowed c = true) :
    parse (path ++ "?" ++ query) = .ok ⟨path, some query⟩ := by
  obtain ⟨hstart, hallowed, -⟩ := parse_eq_ok_iff.1 hpath
  have hmark : '?' ∉ path.toList := by
    rcases (isWellFormed_of_parse hpath).shape with hshape | ⟨-, hmark⟩
    · exact absurd (congrArg PathAndQuery.path hshape) hstar
    · exact hmark
  have hchars : (path ++ "?" ++ query).toList = path.toList ++ '?' :: query.toList := by simp
  rw [parse_eq_ok_iff, hchars, ofChars_append_cons hmark, String.ofList_toList,
    String.ofList_toList]
  refine ⟨?_, List.forall_mem_append.2 ⟨hallowed, List.forall_mem_cons.2 ⟨by decide, hquery⟩⟩, rfl⟩
  rcases startsPath_iff.1 hstart with hshape | ⟨rest, hrest⟩
  · exact absurd (String.toList_inj.1 hshape) hstar
  · rw [hrest]
    rfl

namespace Parameters

/-- There is nothing to write where there are no parameters, and only there. -/
theorem encode_eq_empty_iff {p : Parameters} : p.encode = "" ↔ p = [] := by
  constructor
  · intro h
    have hpieces := QueryBytes.pieces_encode p
    rw [h] at hpieces
    exact List.map_eq_nil_iff.1 hpieces.symm
  · rintro rfl
    rfl

/-- A query that is read and written again. -/
def rewrite (query : String) : Except TargetFault String := (decode query).map encode

/-- Parameters with each key once come back from the query that they are written to. -/
theorem decode_encode {p : Parameters} (hp : p.keys.Nodup) : decode p.encode = .ok p :=
  decode_eq_ok_iff.2 (decode?_encode hp)

/-- Parameters that were read from a query come back from the one that they are written to. -/
theorem decode_encode_of_decode {query : String} {p : Parameters} (h : decode query = .ok p) :
    decode p.encode = .ok p :=
  decode_encode (QueryBytes.nodup_keys_of_decode? (decode_eq_ok_iff.1 h))

/-- A query that was read and written once is not changed by doing so again. -/
theorem rewrite_of_rewrite {query rewritten : String} (h : rewrite query = .ok rewritten) :
    rewrite rewritten = .ok rewritten := by
  rw [rewrite] at h
  cases hread : decode query with
  | error fault =>
      rw [hread] at h
      cases h
  | ok p =>
      rw [hread] at h
      obtain rfl : p.encode = rewritten := Except.ok.inj h
      rw [rewrite, decode_encode_of_decode hread]
      rfl

/-- Parameters with each key once come back from the query that they are written to, in their
order.  This query is empty only where there are none, is written with letters, digits and a few
marks, and can stand behind any path that can have a query.  So a query that can be read stands for
the same parameters after it is written again, and it is not changed further after that. -/
theorem readsBack :
    (∀ p : Parameters, p.keys.Nodup → decode p.encode = .ok p) ∧
    (∀ p : Parameters, (p.encode = "" ↔ p = []) ∧
      (∀ c ∈ p.encode.toList, c.isAlphanum = true ∨
        c ∈ ['*', '-', '.', '_', '+', '%', '&', '=']) ∧
      ∀ path, PathAndQuery.parse path = .ok ⟨path, none⟩ → path ≠ "*" →
        PathAndQuery.parse (path ++ "?" ++ p.encode) = .ok ⟨path, some p.encode⟩) ∧
    (∀ query p, decode query = .ok p → decode p.encode = .ok p) ∧
    ∀ query rewritten, rewrite query = .ok rewritten → rewrite rewritten = .ok rewritten := by
  refine ⟨fun p => decode_encode, fun p => ⟨encode_eq_empty_iff, fun c hc => ?_, ?_⟩,
    fun query p => decode_encode_of_decode, fun query rewritten => rewrite_of_rewrite⟩
  · have hwritten := isWritten_of_mem_encode hc
    rwa [isWritten, Bool.or_eq_true, List.contains_iff_mem] at hwritten
  · intro path hpath hstar
    exact PathAndQuery.parse_append_query hpath hstar fun c hc =>
      isAllowed_of_isWritten (isWritten_of_mem_encode hc)

/-- Marks of queries and characters of several bytes come back from keys and values. -/
theorem readsBack_marks :
    let p : Parameters := [("a&b=", "1+1=2 %é"), ("", ""), ("*-._", "漢😀")]
    let query := "a%26b%3D=1%2B1%3D2+%25%C3%A9&=&*-._=%E6%BC%A2%F0%9F%98%80"
    p.keys.Nodup ∧ p.encode = query ∧ decode query = .ok p ∧
      PathAndQuery.parse ("/a" ++ "?" ++ query) = .ok ⟨"/a", some query⟩ ∧
      decode "é=%C3%a9&é=2" = .ok [("é", "2")] ∧
      decode (encode [("é", "2")]) = .ok [("é", "2")] ∧
      rewrite "é=%C3%a9&é=2" = .ok "%C3%A9=2" ∧ rewrite "%C3%A9=2" = .ok "%C3%A9=2" := by
  intro p query
  obtain ⟨hback, hquery, hread, hwrite⟩ := readsBack
  have hkeys : p.keys.Nodup := by decide
  have hencode : p.encode = query := by decide +kernel
  have hpath : PathAndQuery.parse "/a" = .ok ⟨"/a", none⟩ := by decide +kernel
  have hdecode : decode "é=%C3%a9&é=2" = .ok [("é", "2")] := by decide +kernel
  have hrewrite : rewrite "é=%C3%a9&é=2" = .ok "%C3%A9=2" := by decide +kernel
  refine ⟨hkeys, hencode, hencode ▸ hback p hkeys,
    hencode ▸ (hquery p).2.2 "/a" hpath (by decide), hdecode, hread _ _ hdecode, hrewrite,
    hwrite _ _ hrewrite⟩

end Parameters

end FaultInjection
