import FaultInjection.Proofs.Admin.Page
import FaultInjection.Proofs.Admin.Query

/-!
# Administration - Paging through the log

The administrator reads the log page by page.  A page with an offset and an end that are not
negative shows the entries that are asked for.  A negative one is counted from the end of the log,
so that even a negative limit can show entries.

Main definitions:

- `Admin.Reply.listed`, the entries that a reply lists.
- `Admin.ShowsPages`, how the log is shown page by page.

Main results:

- `Admin.handle_page`: the reply to a request for a page.
- `Admin.showsPages`: which pages show what they ask for, and that those from the start on show all.
- `Admin.not_forall_listed_eq_window`: a negative limit shows entries.
-/

namespace FaultInjection

namespace Admin

/-! ## Replies -/

/-- A value in the document of a reply. -/
def Reply.field? (reply : Reply) (key : String) : Option Document :=
  match reply.body with
  | .document value => value.field? key
  | .text _ => none

/-- The entries that a reply lists. -/
def Reply.listed (reply : Reply) : List Document :=
  match reply.field? "exchanges" with
  | some (.list items) => items
  | _ => []

section Replies

variable {files : Files} {p : Proxy} {path : String} {offset limit : Int}

/-- A request for a page is answered by a document. -/
theorem handle_page (h : AsksForPage (Locator.parse path) offset limit) :
    (handle files p "GET" path).reply =
      .ofDocument 200 (historyDocument p.history (Locator.parse path)) := by
  have hmethod : normalMethod "GET" = "GET" := by decide +kernel
  have haction : action? "GET" (Locator.parse path).path = some .showHistory := by
    rw [h.path]
    rfl
  rw [handle, hmethod]
  simp only [handleMethod, haction]
  rfl

/-- A page goes with the length of the log. -/
theorem field?_total_page (h : AsksForPage (Locator.parse path) offset limit)
    (hsize : p.history.size ≤ 2 ^ 53) :
    (handle files p "GET" path).reply.field? "total" =
      some (.number (.whole p.history.size)) := by
  rw [handle_page h, ← Number.ofNat_eq_whole hsize]
  rfl

/-- A page lists what lies between the places of its offset and of its end. -/
theorem listed_page (h : AsksForPage (Locator.parse path) offset limit) :
    (handle files p "GET" path).reply.listed =
      (page p.history.toList (.ofInt offset) (.ofInt limit)).map History.Entry.document := by
  rw [handle_page h, ← bound_of_asksFor h.offset, ← bound_of_asksFor h.limit]
  rfl

end Replies

theorem length_toList (h : History) : h.toList.length = h.size := List.length_map ..

/-! ## Pages -/

/-- How the log of a proxy is shown page by page. -/
structure ShowsPages (files : Files) (p : Proxy) : Prop where
  /-- A page goes with the length of the log. -/
  total : ∀ path offset limit, AsksForPage (Locator.parse path) offset limit →
    (handle files p "GET" path).reply.status = 200 ∧
      (handle files p "GET" path).reply.field? "total" = some (.number (.whole p.history.size))
  /-- It shows the entries that it asks for exactly if its offset and its limit fit. -/
  listed_iff : ∀ path offset limit, AsksForPage (Locator.parse path) offset limit →
    Page.AddsExactly offset limit →
      ((handle files p "GET" path).reply.listed =
          (Page.window p.history.toList offset limit).map History.Entry.document ↔
        Page.Fits p.history.size offset limit)
  /-- It shows no more entries than its limit then. -/
  length_le : ∀ path offset limit, AsksForPage (Locator.parse path) offset limit →
    Page.AddsExactly offset limit → Page.Fits p.history.size offset limit →
      (handle files p "GET" path).reply.listed.length ≤ limit.toNat
  /-- Pages from the start on, one behind the other, show each entry once. -/
  covers : ∀ limit count : Nat, p.history.size ≤ count * limit →
    ((List.range count).flatMap fun k =>
        (handle files p "GET" (pagePath (k * limit : Nat) limit)).reply.listed) =
      p.history.toList.map History.Entry.document

/-- A log of up to 2^53 exchanges is shown page by page. -/
theorem showsPages (files : Files) {p : Proxy} (hsize : p.history.size ≤ 2 ^ 53) :
    ShowsPages files p := by
  have hlength : p.history.toList.length ≤ 2 ^ 53 := by rwa [length_toList]
  have hlisted {path : String} {offset limit : Int}
      (h : AsksForPage (Locator.parse path) offset limit) (hadds : Page.AddsExactly offset limit)
      (hfits : Page.Fits p.history.size offset limit) :
      (handle files p "GET" path).reply.listed =
        (Page.window p.history.toList offset limit).map History.Entry.document := by
    rw [← length_toList] at hfits
    rw [listed_page h, Page.page_eq_window hlength hadds hfits]
  refine ⟨?_, ?_, ?_, ?_⟩
  · intro path offset limit h
    refine ⟨?_, field?_total_page h hsize⟩
    rw [handle_page h]
    rfl
  · intro path offset limit h hadds
    refine ⟨fun heq => ?_, hlisted h hadds⟩
    rw [listed_page h] at heq
    have hcount := congrArg List.length heq
    rw [List.length_map, List.length_map] at hcount
    rw [← length_toList]
    exact Page.fits_of_length_page_eq hlength hadds hcount
  · intro path offset limit h hadds hfits
    rw [hlisted h hadds hfits, List.length_map]
    exact Page.length_window_le ..
  · intro limit count hcount
    have hpages (k : Nat) : (handle files p "GET" (pagePath (k * limit : Nat) limit)).reply.listed =
        (Page.window p.history.toList (k * limit : Nat) limit).map History.Entry.document :=
      hlisted (asksForPage_pagePath _ _) (by intro h; omega) (.inl ⟨by omega, by omega⟩)
    simp only [hpages]
    rw [← List.map_flatMap, Page.flatMap_window, List.take_of_length_le (by rwa [length_toList])]

/-! ## Three exchanges -/

/-- A proxy with three exchanges in its log. -/
def threeExchanges : Proxy where
  source := { path := "/cfg/rules.json" }
  history :=
    { entries := [1, 2, 3].map fun n =>
        (.whole n, { id := .whole n, method := "GET", url := "/", timestamp := .whole 0 }) }

/-- The second exchange of three is the page of an offset and a limit of one, also where the locator
names them differently. -/
theorem showsPages_threeExchanges :
    threeExchanges.history.size ≤ 2 ^ 53 ∧
      AsksForPage (Locator.parse "/api/exchanges?x&offset=%2B01&limit=1") 1 1 ∧
      Page.AddsExactly 1 1 ∧ Page.Fits threeExchanges.history.size 1 1 ∧
      (handle [] threeExchanges "GET" "/api/exchanges?x&offset=%2B01&limit=1").reply.listed =
        (Page.window threeExchanges.history.toList 1 1).map History.Entry.document := by
  have hsize : threeExchanges.history.size ≤ 2 ^ 53 := by decide
  have hpath : (Locator.parse "/api/exchanges?x&offset=%2B01&limit=1").path = "/api/exchanges" := by
    decide +kernel
  have hoffset : (Locator.parse "/api/exchanges?x&offset=%2B01&limit=1").value? "offset" =
      some "+01" := by decide +kernel
  have hlimit : (Locator.parse "/api/exchanges?x&offset=%2B01&limit=1").value? "limit" =
      some "1" := by decide +kernel
  have hplus : IsNumeral ['+', '0', '1'] 1 := .positive (List.cons_ne_nil '0' ['1']) (by simp)
  have hone : IsNumeral ['1'] 1 := .unsigned (List.cons_ne_nil '1' []) (by simp)
  have hasks : AsksForPage (Locator.parse "/api/exchanges?x&offset=%2B01&limit=1") 1 1 :=
    ⟨hpath, .inl ⟨_, hoffset, hplus⟩, .inl ⟨_, hlimit, hone⟩⟩
  have hadds : Page.AddsExactly 1 1 := by decide
  have hfits : Page.Fits threeExchanges.history.size 1 1 := by decide
  exact ⟨hsize, hasks, hadds, hfits, ((showsPages [] hsize).listed_iff _ 1 1 hasks hadds).2 hfits⟩

/-- A limit of minus one shows all entries but the last, where none were asked for. -/
theorem not_forall_listed_eq_window :
    ¬ ∀ (files : Files) (p : Proxy) (path : String) (offset limit : Int),
      AsksForPage (Locator.parse path) offset limit →
        (handle files p "GET" path).reply.listed =
          (Page.window p.history.toList offset limit).map History.Entry.document := by
  intro h
  have hasks := asksForPage_pagePath 0 (-1)
  have hlisted := h [] threeExchanges _ 0 (-1) hasks
  rw [listed_page hasks] at hlisted
  have hcount := congrArg List.length hlisted
  rw [List.length_map, List.length_map] at hcount
  revert hcount
  decide +kernel

end Admin

end FaultInjection
