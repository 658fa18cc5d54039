import FaultInjection.Config.Schema
import FaultInjection.Proofs.Config.Checked

/-!
# Configuration - What is rejected

A check that rejects a value reports at least one issue.  This holds of the checks of single
values and is kept by every operation that makes checks of others, so it holds of the check of
a whole document.

Main definitions:

- `Checked.IsReasoned`, the result of a check that is no rejection without issues.
- `Check.IsReasoned`, a check with such results alone.

Main results:

- `Schema.isReasoned_config`: a document that stands for no configuration has issues.
-/

namespace FaultInjection

/-- A value is accepted, or rejected with issues. -/
def Checked.IsReasoned {α : Type} : Checked α → Prop
  | accepted _ => True
  | rejected issues _ => issues ≠ []

/-- Every value is accepted, or rejected with issues. -/
def Check.IsReasoned {α : Type} (check : Check α) : Prop := ∀ document, (check document).IsReasoned

namespace Checked

variable {α β : Type}

/-! ## Operations -/

theorem isReasoned_wrongKind (cause : Issue.Cause) : (wrongKind cause : Checked α).IsReasoned :=
  List.cons_ne_nil _ _

theorem isReasoned_tested (value : α) (causes : List Issue.Cause) :
    (tested value causes).IsReasoned := by
  cases causes with
  | nil => trivial
  | cons cause rest => exact List.cons_ne_nil _ _

theorem IsReasoned.map {check : Checked α} (h : check.IsReasoned) (f : α → β) :
    (check.map f).IsReasoned := by
  cases check with
  | accepted value => trivial
  | rejected issues kindFits => exact h

theorem IsReasoned.reading {check : Checked α} (h : check.IsReasoned) (f : α → β) :
    (check.reading f).IsReasoned := by
  cases check with
  | accepted value => trivial
  | rejected issues kindFits => exact h

theorem IsReasoned.under {check : Checked α} (h : check.IsReasoned) (step : Issue.Step) :
    (check.under step).IsReasoned := by
  cases check with
  | accepted value => trivial
  | rejected issues kindFits => exact fun hnil => h (List.map_eq_nil_iff.1 hnil)

/-- Of two checks side by side one has issues where they reject. -/
theorem IsReasoned.both {first : Checked α} {second : Checked β} (hfirst : first.IsReasoned)
    (hsecond : second.IsReasoned) : (both first second).IsReasoned := by
  cases first with
  | accepted a => cases second <;> exact hsecond
  | rejected issues kindFits =>
      cases second with
      | accepted b => exact hfirst
      | rejected issues' kindFits' => exact List.append_ne_nil_of_left_ne_nil hfirst _

theorem isReasoned_all {checks : List (Checked α)} (h : ∀ check ∈ checks, check.IsReasoned) :
    (all checks).IsReasoned := by
  induction checks with
  | nil => trivial
  | cons check rest ih =>
      obtain ⟨hfirst, hrest⟩ := List.forall_mem_cons.1 h
      exact (hfirst.both (ih hrest)).map _

/-- A choice between notations has the issues of one of them, or that none fits. -/
theorem isReasoned_firstOf {checks : List (Checked α)} (h : ∀ check ∈ checks, check.IsReasoned) :
    (firstOf checks).IsReasoned := by
  have hunfit : (firstUnfit checks).IsReasoned := by
    fun_induction firstUnfit checks with
    | case1 => exact isReasoned_wrongKind _
    | case2 issues rest => exact h _ List.mem_cons_self
    | case3 check rest _ ih => exact ih (List.forall_mem_cons.1 h).2
  unfold firstOf
  split
  · trivial
  · exact hunfit

/-! ## Checks of documents -/

theorem isReasoned_optional {check : Check α} (h : check.IsReasoned) :
    Check.IsReasoned (optional check) := by
  intro document
  unfold optional
  split
  · trivial
  · trivial
  · exact (h _).map _

theorem isReasoned_field {check : Check α} (h : check.IsReasoned)
    (fields : List (String × Document)) (key : String) : (field fields key check).IsReasoned :=
  (h _).under _

theorem isReasoned_text : Check.IsReasoned text := by
  intro document
  unfold text
  split
  · exact isReasoned_wrongKind _
  · trivial
  · exact isReasoned_wrongKind _

theorem isReasoned_boolean : Check.IsReasoned boolean := by
  intro document
  unfold boolean
  split
  · exact isReasoned_wrongKind _
  · trivial
  · exact isReasoned_wrongKind _

theorem isReasoned_number (failing : Number → List Issue.Cause) :
    Check.IsReasoned (number failing) := by
  intro document
  unfold number
  split
  · exact isReasoned_wrongKind _
  · exact isReasoned_wrongKind _
  · exact isReasoned_tested _ _
  · exact isReasoned_wrongKind _

theorem isReasoned_list {check : Check α} (h : check.IsReasoned) :
    Check.IsReasoned (list check) := by
  have hitems : ∀ index documents, ∀ item ∈ items check index documents, item.IsReasoned := by
    intro index documents
    induction documents generalizing index with
    | nil => exact List.forall_mem_nil _
    | cons d rest ih => exact List.forall_mem_cons.2 ⟨(h _).under _, ih (index + 1)⟩
  intro document
  unfold list
  split
  · exact isReasoned_wrongKind _
  · exact isReasoned_all (hitems 0 _)
  · exact isReasoned_wrongKind _

/-- A field that may be missing is checked like any other. -/
theorem isReasoned_part {check : Check α} (h : check.IsReasoned)
    (fields : List (String × Document)) (key : String) :
    (field fields key (optional check)).IsReasoned :=
  isReasoned_field (isReasoned_optional h) fields key

theorem isReasoned_record {check : List (String × Document) → Checked α}
    (h : ∀ fields, (check fields).IsReasoned) : Check.IsReasoned (record check) := by
  intro document
  unfold record
  split
  · exact isReasoned_wrongKind _
  · exact h _
  · exact isReasoned_wrongKind _

end Checked

namespace Schema

open Checked

/-! ## Texts -/

/-- A text is looked at further where it is one. -/
theorem isReasoned_ofText {α : Type} {further : String → Checked α}
    (h : ∀ s, (further s).IsReasoned) (document : Option Document) :
    (match text document with
      | accepted s => further s
      | rejected issues kindFits => rejected issues kindFits).IsReasoned := by
  have htext := isReasoned_text document
  cases hread : text document with
  | accepted s => exact h s
  | rejected issues kindFits =>
      rw [hread] at htext
      exact htext

theorem isReasoned_textPassing (passes : String → Bool) (cause : Issue.Cause) :
    Check.IsReasoned (textPassing passes cause) :=
  isReasoned_ofText fun _ => isReasoned_tested _ _

theorem isReasoned_selectorPath : Check.IsReasoned selectorPath := by
  refine isReasoned_ofText fun s => ?_
  split
  · trivial
  · exact List.cons_ne_nil _ _

theorem isReasoned_durationText : Check.IsReasoned durationText := by
  refine isReasoned_ofText fun s => ?_
  split
  · trivial
  · exact List.cons_ne_nil _ _

theorem isReasoned_side : Check.IsReasoned side := by
  intro document
  unfold side
  split
  · exact isReasoned_wrongKind _
  · split
    · trivial
    · exact isReasoned_wrongKind _
  · exact isReasoned_wrongKind _

/-! ## Records -/

theorem isReasoned_entries {α : Type} {key : String → Checked String} {value : Check α}
    (hkey : ∀ s, (key s).IsReasoned) (hvalue : value.IsReasoned)
    (fields : List (String × Document)) : (entries key value fields).IsReasoned := by
  refine (isReasoned_all ?_).map _
  intro check hcheck
  obtain ⟨⟨k, v⟩, -, rfl⟩ := List.mem_map.1 hcheck
  exact ((hkey k).both (hvalue _)).under _

theorem isReasoned_headers : Check.IsReasoned headers := by
  have hvalue : Check.IsReasoned headerValue := isReasoned_textPassing _ _
  have hvalues : Check.IsReasoned headerValues := by
    intro document
    refine isReasoned_firstOf (List.forall_mem_cons.2 ⟨(hvalue _).map _, ?_⟩)
    exact List.forall_mem_singleton.2 (isReasoned_list hvalue document)
  exact isReasoned_record fun fields =>
    (isReasoned_entries (fun s => isReasoned_tested _ _) hvalues fields).reading _

theorem isReasoned_parameters : Check.IsReasoned parameters := by
  have hkey : ∀ s : String, (accepted s).IsReasoned := fun _ => trivial
  exact isReasoned_record fun fields => isReasoned_entries hkey isReasoned_text fields

theorem isReasoned_duration : Check.IsReasoned duration := by
  have hcount : Check.IsReasoned countOrZero := by
    intro document
    cases document with
    | none => trivial
    | some d => exact isReasoned_number _ _
  have hrecord : Check.IsReasoned durationRecord := isReasoned_record fun fields =>
    ((isReasoned_field (isReasoned_number _) fields _).both
      (isReasoned_field hcount fields _)).reading _
  intro document
  refine isReasoned_firstOf (List.forall_mem_cons.2 ⟨isReasoned_number _ document, ?_⟩)
  refine List.forall_mem_cons.2 ⟨isReasoned_durationText document, ?_⟩
  exact List.forall_mem_singleton.2 (hrecord document)

/-! ## Rules -/

theorem isReasoned_port : Check.IsReasoned port := isReasoned_number _

theorem isReasoned_status : Check.IsReasoned status := isReasoned_number _

theorem isReasoned_method : Check.IsReasoned method := isReasoned_textPassing _ _

theorem isReasoned_selector : Check.IsReasoned selector :=
  isReasoned_record fun fields =>
    ((isReasoned_part isReasoned_port fields _).both
      ((isReasoned_part isReasoned_selectorPath fields _).both
        ((isReasoned_part isReasoned_method fields _).both
          ((isReasoned_part isReasoned_headers fields _).both
            ((isReasoned_part isReasoned_status fields _).both
              (isReasoned_part isReasoned_headers fields _)))))).map _

theorem isReasoned_additions : Check.IsReasoned additions :=
  isReasoned_record fun fields =>
    ((isReasoned_part isReasoned_text fields _).both
      (isReasoned_part isReasoned_headers fields _)).map _

theorem isReasoned_replacements : Check.IsReasoned replacements :=
  isReasoned_record fun fields =>
    ((isReasoned_part isReasoned_text fields _).both
      ((isReasoned_part isReasoned_method fields _).both
        ((isReasoned_part isReasoned_text fields _).both
          ((isReasoned_part isReasoned_status fields _).both
            ((isReasoned_part isReasoned_parameters fields _).both
              (isReasoned_part isReasoned_headers fields _)))))).map _

theorem isReasoned_actions : Check.IsReasoned actions :=
  isReasoned_record fun fields =>
    ((isReasoned_part isReasoned_boolean fields _).both
      ((isReasoned_part isReasoned_duration fields _).both
        ((isReasoned_part isReasoned_additions fields _).both
          (isReasoned_part isReasoned_replacements fields _)))).map _

theorem isReasoned_rule : Check.IsReasoned rule :=
  isReasoned_record fun fields =>
    ((isReasoned_part (isReasoned_textPassing _ _) fields _).both
      ((isReasoned_field isReasoned_side fields _).both
        ((isReasoned_part isReasoned_selector fields _).both
          (isReasoned_part isReasoned_actions fields _)))).map _

/-- A document that stands for no configuration has issues. -/
theorem isReasoned_config : Check.IsReasoned config :=
  isReasoned_record fun fields =>
    ((isReasoned_part isReasoned_port fields _).both
      ((isReasoned_part (isReasoned_list isReasoned_port) fields _).both
        (isReasoned_part (isReasoned_list isReasoned_rule) fields _))).map _

end Schema

end FaultInjection
