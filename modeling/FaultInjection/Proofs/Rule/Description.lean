import FaultInjection.Proofs.Document.KeyOrder
import FaultInjection.Proofs.Text.Utf8
import FaultInjection.Rule.Description

/-!
# Rules - What a description shows

A description names each part of a rule that is present, so that two rules with the same
description have the same parts.  Two parts are shown in another form: a body as the text of its
bytes, and parameters as a record, which has an order of its own.  Nothing is lost of a body
that is the bytes of a text, nor of parameters that are in the order of a record already.

Main definitions:

- `Rule.IsShown`, a rule whose body and parameters are shown as they are.

Main results:

- `Record.eq_of_present_eq`: absent fields are told apart from present ones.
- `Rule.eq_of_description_eq`: two rules that are shown as they are and have the same description
  are the same.
-/

namespace FaultInjection

/-! ## Parts that may be absent -/

/-- Parts that may be absent are the same when they are mapped to the same, by a map that tells
these parts apart. -/
theorem eq_of_map_eq {α β : Type} {f : α → β} {part part' : Option α}
    (hf : ∀ a ∈ part, ∀ b ∈ part', f a = f b → a = b) (h : part.map f = part'.map f) :
    part = part' := by
  cases part with
  | none => exact (Option.map_eq_none_iff.1 h.symm).symm
  | some a =>
      obtain ⟨b, hb, hsame⟩ := Option.map_eq_some_iff.1 h.symm
      subst hb
      rw [hf a rfl b rfl hsame.symm]

namespace Record

variable {α : Type}

/-- The fields that are present. -/
def present (fields : List (String × Option α)) : Record α :=
  fields.filterMap fun (key, value?) => value?.map (key, ·)

/-- The keys of the fields that are present are among those of all fields. -/
theorem mem_of_mem_keys_present {fields : List (String × Option α)} {key : String}
    (h : key ∈ (present fields).keys) : key ∈ fields.map Prod.fst := by
  obtain ⟨⟨k, value⟩, hmem, rfl⟩ := List.mem_map.1 h
  obtain ⟨⟨k', value?⟩, hfield, hvalue⟩ := List.mem_filterMap.1 hmem
  obtain ⟨v, rfl, hsame⟩ := Option.map_eq_some_iff.1 hvalue
  cases hsame
  exact List.mem_map_of_mem hfield

/-- Fields under the same keys are the same when those that are present are: the key of an absent
field is not there. -/
theorem eq_of_present_eq {fields fields' : List (String × Option α)}
    (hkeys : fields.map Prod.fst = fields'.map Prod.fst) (hnodup : (fields.map Prod.fst).Nodup)
    (h : present fields = present fields') : fields = fields' := by
  induction fields generalizing fields' with
  | nil => exact (List.map_eq_nil_iff.1 hkeys.symm).symm
  | cons field rest ih =>
      cases fields' with
      | nil => cases hkeys
      | cons field' rest' =>
          obtain ⟨key, value?⟩ := field
          obtain ⟨key', value?'⟩ := field'
          obtain ⟨hkey, hrest⟩ := List.cons.inj hkeys
          obtain rfl : key = key' := hkey
          obtain ⟨hfresh, hothers⟩ := List.nodup_cons.1 hnodup
          cases value? with
          | none =>
              cases value?' with
              | none => rw [ih hrest hothers h]
              | some value' =>
                  have hthere : present rest = (key, value') :: present rest' := h
                  have hmem : key ∈ (present rest).keys := hthere ▸ List.mem_cons_self
                  exact absurd (mem_of_mem_keys_present hmem) hfresh
          | some value =>
              cases value?' with
              | none =>
                  have hthere : (key, value) :: present rest = present rest' := h
                  have hmem : key ∈ (present rest').keys := hthere ▸ List.mem_cons_self
                  exact absurd (hrest ▸ mem_of_mem_keys_present hmem) hfresh
              | some value' =>
                  have hboth : (key, value) :: present rest = (key, value') :: present rest' := h
                  obtain ⟨hsame, hpresent⟩ := List.cons.inj hboth
                  rw [ih hrest hothers hpresent, (Prod.mk.inj hsame).2]

end Record

/-! ## Parts of rules -/

/-- Pairs with the same description are the same. -/
theorem eq_of_describePairs_eq {pairs pairs' : List (String × String)}
    (h : describePairs pairs = describePairs pairs') : pairs = pairs' := by
  refine (List.map_inj_right ?_).1 (Document.list.inj h)
  rintro ⟨name, value⟩ ⟨name', value'⟩ hpair
  simpa using hpair

/-- Parameters in key order with the same description are the same. -/
theorem Parameters.eq_of_description_eq {p p' : Parameters} (hp : Record.IsOrdered p)
    (hp' : Record.IsOrdered p') (h : p.description = p'.description) : p = p' := by
  have hfields := Document.record.inj h
  rw [Record.ofFields_eq_self ((Record.isOrdered_map_iff Document.text).2 hp),
    Record.ofFields_eq_self ((Record.isOrdered_map_iff Document.text).2 hp')] at hfields
  refine (List.map_inj_right ?_).1 hfields
  rintro ⟨key, value⟩ ⟨key', value'⟩ hpair
  simpa using hpair

/-- Numbers that may be absent are told by their descriptions. -/
theorem map_number_eq_iff {n n' : Option Number} :
    n.map Document.number = n'.map Document.number ↔ n = n' :=
  Option.map_inj_right fun _ _ => Document.number.inj

/-- Texts that may be absent are told by their descriptions. -/
theorem map_text_eq_iff {s s' : Option String} :
    s.map Document.text = s'.map Document.text ↔ s = s' :=
  Option.map_inj_right fun _ _ => Document.text.inj

/-- Pairs that may be absent are told by their descriptions. -/
theorem map_describePairs_eq_iff {pairs pairs' : Option (List (String × String))} :
    pairs.map describePairs = pairs'.map describePairs ↔ pairs = pairs' :=
  Option.map_inj_right fun _ _ => eq_of_describePairs_eq

/-- A selector is told by its description. -/
theorem Selector.eq_of_description_eq {s s' : Selector} (h : s.description = s'.description) :
    s = s' := by
  rcases s with ⟨port, path, method, headers, code, responseHeaders⟩
  rcases s' with ⟨port', path', method', headers', code', responseHeaders'⟩
  have hfields := Record.eq_of_present_eq (by rfl) (by simp) (Document.record.inj h)
  simp only [List.cons.injEq, Prod.mk.injEq, true_and, and_true, map_number_eq_iff,
    map_text_eq_iff, map_describePairs_eq_iff] at hfields
  obtain ⟨rfl, rfl, rfl, rfl, rfl, rfl⟩ := hfields
  rfl

/-- Additions are told by their description. -/
theorem Additions.eq_of_description_eq {a a' : Additions} (h : a.description = a'.description) :
    a = a' := by
  rcases a with ⟨query, headers⟩
  rcases a' with ⟨query', headers'⟩
  have hfields := Record.eq_of_present_eq (by rfl) (by simp) (Document.record.inj h)
  simp only [List.cons.injEq, Prod.mk.injEq, true_and, and_true, map_text_eq_iff,
    map_describePairs_eq_iff] at hfields
  obtain ⟨rfl, rfl⟩ := hfields
  rfl

/-- Replacements that a description shows as they are: their body is the bytes of a text, and their
parameters are in key order. -/
structure Replacements.IsShown (r : Replacements) : Prop where
  body : ∀ body ∈ r.body, ∃ s, body = utf8Bytes s
  parameters : ∀ p ∈ r.parameters, Record.IsOrdered p

/-- Bodies that are the bytes of texts, and may be absent, are told by these texts. -/
theorem eq_of_map_utf8Text_eq {body body' : Option Bytes}
    (hbody : ∀ bytes ∈ body, ∃ s, bytes = utf8Bytes s)
    (hbody' : ∀ bytes ∈ body', ∃ s, bytes = utf8Bytes s)
    (h : (body.map fun bytes => Document.text (utf8Text bytes)) =
      body'.map fun bytes => Document.text (utf8Text bytes)) : body = body' := by
  refine eq_of_map_eq ?_ h
  intro bytes hbytes bytes' hbytes' hsame
  obtain ⟨s, rfl⟩ := hbody bytes hbytes
  obtain ⟨s', rfl⟩ := hbody' bytes' hbytes'
  have htexts := Document.text.inj hsame
  rw [utf8Text_utf8Bytes, utf8Text_utf8Bytes] at htexts
  rw [htexts]

/-- Replacements that are shown as they are are told by their description. -/
theorem Replacements.eq_of_description_eq {r r' : Replacements} (hr : r.IsShown) (hr' : r'.IsShown)
    (h : r.description = r'.description) : r = r' := by
  rcases r with ⟨path, method, body, code, parameters, headers⟩
  rcases r' with ⟨path', method', body', code', parameters', headers'⟩
  have hfields := Record.eq_of_present_eq (by rfl) (by simp) (Document.record.inj h)
  simp only [List.cons.injEq, Prod.mk.injEq, true_and, and_true, map_number_eq_iff,
    map_text_eq_iff, map_describePairs_eq_iff] at hfields
  obtain ⟨rfl, rfl, hbody, rfl, hparameters, rfl⟩ := hfields
  obtain rfl := eq_of_map_utf8Text_eq hr.body hr'.body hbody
  obtain rfl : parameters = parameters' := by
    refine eq_of_map_eq ?_ hparameters
    intro p hp p' hp'
    exact Parameters.eq_of_description_eq (hr.parameters p hp) (hr'.parameters p' hp')
  rfl

/-- Actions whose replacements, if there are any, are shown as they are are told by their
description.  An absent part is told apart from an empty one. -/
theorem Actions.eq_of_description_eq {a a' : Actions} (ha : ∀ r ∈ a.replace, r.IsShown)
    (ha' : ∀ r ∈ a'.replace, r.IsShown) (h : a.description = a'.description) : a = a' := by
  rcases a with ⟨abort, delay, append, replace⟩
  rcases a' with ⟨abort', delay', append', replace'⟩
  have hfields := Record.eq_of_present_eq (by rfl) (by simp) (Document.record.inj h)
  simp only [List.cons.injEq, Prod.mk.injEq, true_and, and_true, map_number_eq_iff,
    Option.some.injEq, Document.boolean.injEq] at hfields
  obtain ⟨rfl, rfl, happend, hreplace⟩ := hfields
  obtain rfl := (Option.map_inj_right fun _ _ => Additions.eq_of_description_eq).1 happend
  obtain rfl : replace = replace' := by
    refine eq_of_map_eq ?_ hreplace
    intro r hr r' hr'
    exact Replacements.eq_of_description_eq (ha r hr) (ha' r' hr')
  rfl

/-! ## Rules -/

/-- A rule whose description shows all of it. -/
def Rule.IsShown (rule : Rule) : Prop := ∀ r ∈ rule.actions.replace, r.IsShown

/-- The two sides have different names. -/
theorem Rule.Side.eq_of_name_eq {side side' : Rule.Side} (h : side.name = side'.name) :
    side = side' := by
  cases side <;> cases side' <;> simp [name] at h ⊢

/-- Rules of which all is shown are told by their descriptions. -/
theorem Rule.eq_of_description_eq {rule rule' : Rule} (hrule : rule.IsShown)
    (hrule' : rule'.IsShown) (h : rule.description = rule'.description) : rule = rule' := by
  rcases rule with ⟨name, side, selector, actions⟩
  rcases rule' with ⟨name', side', selector', actions'⟩
  have hfields := Document.record.inj h
  simp only [List.cons.injEq, Prod.mk.injEq, true_and, and_true, Document.text.injEq] at hfields
  obtain ⟨rfl, hside, hselector, hactions⟩ := hfields
  obtain rfl := Rule.Side.eq_of_name_eq hside
  obtain rfl := Selector.eq_of_description_eq hselector
  obtain rfl := Actions.eq_of_description_eq hrule hrule' hactions
  rfl

end FaultInjection
