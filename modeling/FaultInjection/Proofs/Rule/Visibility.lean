import FaultInjection.Rule.Matching
import Mathlib.Data.List.Basic

/-!
# Rules - What selectors look at

Of a request a selector looks at its port, path and method and at which pairs occur among its
headers, and of a response at its status and the same of its headers.  It asks for pairs that
occur, so that their order, their number and the letter case of their names do not count, and one
more pair never makes it fail.

Main definitions:

- `Headers.foldedPairs`, the pairs with their names in lower case.
- `Inbound.ShownBy` and `Response.ShownBy`, for messages that show a selector no less.

Main results:

- `Headers.containsAll_mono`: what is contained stays so among more pairs.
- `Selector.matchesInbound_mono` and `Selector.matchesResponse_mono`: a selector that holds keeps
  holding for messages that show no less.
- `Rule.select_by_view`: which rules match is settled by what selectors look at.
-/

namespace FaultInjection

namespace Headers

/-! ## Pairs that occur -/

/-- The pairs of a list with their names in lower case. -/
def foldedPairs (h : Headers) : List (String × String) :=
  h.toList.map fun pair => (lowerCase pair.1, pair.2)

/-- The values of a name are those that occur with it in any letter case. -/
theorem mem_getAll_iff {h : Headers} {name value : String} :
    value ∈ h.getAll name ↔ (lowerCase name, value) ∈ h.foldedPairs := by
  simp only [getAll, foldedPairs, sameName, List.mem_map, List.mem_filter, beq_iff_eq,
    Prod.mk.injEq]
  constructor
  · rintro ⟨pair, ⟨hmem, hname⟩, hvalue⟩
    exact ⟨pair, hmem, hname, hvalue⟩
  · rintro ⟨pair, hmem, hname, hvalue⟩
    exact ⟨pair, ⟨hmem, hname⟩, hvalue⟩

/-- Pairs are contained where each of them occurs with its name in any letter case. -/
theorem containsAll_iff {h : Headers} {expected : Option (List (String × String))} :
    h.containsAll expected = true ↔
      ∀ pair ∈ expected.getD [], (lowerCase pair.1, pair.2) ∈ h.foldedPairs := by
  cases expected with
  | none => simp [containsAll]
  | some pairs => simp only [containsAll, List.all_eq_true, List.contains_iff_mem, mem_getAll_iff,
      Option.getD_some]

/-- What is contained in a list is contained in one in which no fewer pairs occur. -/
theorem containsAll_mono {first second : Headers} (h : first.foldedPairs ⊆ second.foldedPairs)
    {expected : Option (List (String × String))} (hfirst : first.containsAll expected = true) :
    second.containsAll expected = true := by
  rw [containsAll_iff] at hfirst ⊢
  intro pair hpair
  exact h (hfirst pair hpair)

/-- The pairs of a part of a list occur in the list. -/
theorem foldedPairs_subset_of_sublist {first second : Headers}
    (h : first.toList.Sublist second.toList) : first.foldedPairs ⊆ second.foldedPairs :=
  (h.map _).subset

end Headers

/-! ## Messages that show no less -/

/-- Of two inbound requests the other has the same port, path and method, and no fewer pairs occur
in its headers. -/
structure Inbound.ShownBy (inbound other : Inbound) : Prop where
  port : inbound.port = other.port
  path : inbound.target.matchPath = other.target.matchPath
  method : inbound.method = other.method
  headers : inbound.headers.foldedPairs ⊆ other.headers.foldedPairs

/-- Of two responses the other has the same status, and no fewer pairs occur in its headers. -/
structure Response.ShownBy (response other : Response) : Prop where
  status : response.status = other.status
  headers : response.headers.foldedPairs ⊆ other.headers.foldedPairs

namespace Selector

variable {s : Selector} {inbound inbound' : Inbound} {response response' : Response}

/-- A selector that holds for an inbound request holds for one that shows no less. -/
theorem matchesInbound_mono (h : inbound.ShownBy inbound')
    (hmatches : s.matchesInbound inbound = true) : s.matchesInbound inbound' = true := by
  simp only [matchesInbound, Bool.and_eq_true] at hmatches ⊢
  obtain ⟨⟨⟨hport, hpath⟩, hmethod⟩, hheaders⟩ := hmatches
  rw [← h.port, ← h.path, ← h.method]
  exact ⟨⟨⟨hport, hpath⟩, hmethod⟩, Headers.containsAll_mono h.headers hheaders⟩

/-- A selector that holds for a response holds for one that shows no less, to a request that shows
no less. -/
theorem matchesResponse_mono (h : inbound.ShownBy inbound') (h' : response.ShownBy response')
    (hmatches : s.matchesResponse inbound response = true) :
    s.matchesResponse inbound' response' = true := by
  simp only [matchesResponse, Bool.and_eq_true] at hmatches ⊢
  obtain ⟨⟨hinbound, hcode⟩, hheaders⟩ := hmatches
  rw [← h'.status]
  exact ⟨⟨matchesInbound_mono h hinbound, hcode⟩, Headers.containsAll_mono h'.headers hheaders⟩

/-- What a selector asks of responses does not count for requests. -/
theorem matchesRequest_of_other_response (s : Selector) (code : Option Number)
    (responseHeaders : Option (List (String × String))) (port : Number) (request : Request) :
    { s with code, responseHeaders }.matchesRequest port request = s.matchesRequest port request :=
  rfl

end Selector

/-! ## Views that are the same -/

/-- Two inbound requests have the same port, path and method, and the same pairs occur in their
headers. -/
structure Inbound.SameView (inbound other : Inbound) : Prop where
  port : inbound.port = other.port
  path : inbound.target.matchPath = other.target.matchPath
  method : inbound.method = other.method
  headers : ∀ pair, pair ∈ inbound.headers.foldedPairs ↔ pair ∈ other.headers.foldedPairs

/-- Two responses have the same status, and the same pairs occur in their headers. -/
structure Response.SameView (response other : Response) : Prop where
  status : response.status = other.status
  headers : ∀ pair, pair ∈ response.headers.foldedPairs ↔ pair ∈ other.headers.foldedPairs

section Views

variable {inbound inbound' : Inbound} {response response' : Response}

theorem Inbound.SameView.shownBy (h : inbound.SameView inbound') : inbound.ShownBy inbound' :=
  ⟨h.port, h.path, h.method, fun pair => (h.headers pair).1⟩

theorem Inbound.SameView.symm (h : inbound.SameView inbound') : inbound'.SameView inbound :=
  ⟨h.port.symm, h.path.symm, h.method.symm, fun pair => (h.headers pair).symm⟩

theorem Response.SameView.shownBy (h : response.SameView response') :
    response.ShownBy response' :=
  ⟨h.status, fun pair => (h.headers pair).1⟩

theorem Response.SameView.symm (h : response.SameView response') : response'.SameView response :=
  ⟨h.status.symm, fun pair => (h.headers pair).symm⟩

/-- A selector does not tell requests apart that look the same. -/
theorem Selector.matchesInbound_eq (h : inbound.SameView inbound') (s : Selector) :
    s.matchesInbound inbound = s.matchesInbound inbound' :=
  Bool.eq_iff_iff.2 ⟨matchesInbound_mono h.shownBy, matchesInbound_mono h.symm.shownBy⟩

/-- A selector does not tell responses apart that look the same, to requests that do. -/
theorem Selector.matchesResponse_eq (h : inbound.SameView inbound')
    (h' : response.SameView response') (s : Selector) :
    s.matchesResponse inbound response = s.matchesResponse inbound' response' :=
  Bool.eq_iff_iff.2
    ⟨matchesResponse_mono h.shownBy h'.shownBy, matchesResponse_mono h.symm.shownBy h'.symm.shownBy⟩

end Views

namespace Rule

/-! ## Rules that match -/

/-- The rules that match one message match another too if every selector that holds for the one
holds for the other. -/
theorem filter_sublist_of_selectors (rules : List Rule) (side : Rule.Side)
    {first second : Selector → Bool} (h : ∀ s, first s = true → second s = true) :
    (rules.filter fun rule => rule.side == side && first rule.selector).Sublist
      (rules.filter fun rule => rule.side == side && second rule.selector) := by
  refine List.monotone_filter_right rules fun rule => ?_
  simp only [Bool.and_eq_true]
  exact fun ⟨hside, hfirst⟩ => ⟨hside, h rule.selector hfirst⟩

/-- Which selectors hold for a request, and which rules match it, is settled by its port, path and
method and by the pairs that occur in its headers; what a selector asks of responses does not
count.  For a response the same is settled by these parts of its request and by its own status and
pairs.  More pairs never make a selector fail, so that no rule is lost. -/
theorem select_by_view :
    (∀ (port : Number) (request other : Request),
      (request.inbound port).SameView (other.inbound port) →
      (∀ s : Selector, s.matchesRequest port request = s.matchesRequest port other) ∧
      ∀ rules, forRequest rules port request = forRequest rules port other) ∧
    (∀ (s : Selector) code responseHeaders port request,
      { s with code, responseHeaders }.matchesRequest port request =
        s.matchesRequest port request) ∧
    (∀ (inbound inbound' : Inbound) (response response' : Response),
      inbound.SameView inbound' → response.SameView response' →
      (∀ s : Selector, s.matchesResponse inbound response = s.matchesResponse inbound' response') ∧
      ∀ rules, forResponse rules inbound response = forResponse rules inbound' response') ∧
    (∀ (port : Number) (request other : Request),
      (request.inbound port).ShownBy (other.inbound port) →
      (∀ s : Selector, s.matchesRequest port request = true →
        s.matchesRequest port other = true) ∧
      ∀ rules, (forRequest rules port request).Sublist (forRequest rules port other)) ∧
    ∀ (inbound inbound' : Inbound) (response response' : Response),
      inbound.ShownBy inbound' → response.ShownBy response' →
      (∀ s : Selector, s.matchesResponse inbound response = true →
        s.matchesResponse inbound' response' = true) ∧
      ∀ rules,
        (forResponse rules inbound response).Sublist (forResponse rules inbound' response') := by
  refine ⟨?_, Selector.matchesRequest_of_other_response, ?_, ?_, ?_⟩
  · intro port request other h
    have hselectors : ∀ s : Selector, s.matchesRequest port request = s.matchesRequest port other :=
      Selector.matchesInbound_eq h
    refine ⟨hselectors, fun rules => ?_⟩
    simp only [forRequest, hselectors]
  · intro inbound inbound' response response' h h'
    have hselectors := Selector.matchesResponse_eq h h'
    refine ⟨hselectors, fun rules => ?_⟩
    simp only [forResponse, hselectors]
  · intro port request other h
    have hselectors : ∀ s : Selector, s.matchesRequest port request = true →
        s.matchesRequest port other = true := fun _ => Selector.matchesInbound_mono h
    exact ⟨hselectors, fun rules => filter_sublist_of_selectors rules .request hselectors⟩
  · intro inbound inbound' response response' h h'
    have hselectors : ∀ s : Selector, s.matchesResponse inbound response = true →
        s.matchesResponse inbound' response' = true := fun _ => Selector.matchesResponse_mono h h'
    exact ⟨hselectors, fun rules => filter_sublist_of_selectors rules .response hselectors⟩

/-- Header pairs in another order, spelling and number, behind another form of the target; and one
more of them. -/
theorem select_by_view_reordered :
    let s : Selector := { port := some 80, path := some "/a", headers := some [("X-Tag", "1")] }
    let rules : List Rule := [⟨"tag", .request, s, {}⟩, ⟨"other", .request, { code := some 1 }, {}⟩]
    let request : Request :=
      ⟨"GET", ⟨none, none, some ⟨"/a/b", none⟩⟩, ⟨[("x-tag", "1"), ("X-TAG", "2")]⟩, []⟩
    let other : Request := ⟨"GET", ⟨some "http", some "h", some ⟨"/a/b", some "q"⟩⟩,
      ⟨[("X-Tag", "2"), ("X-tag", "1"), ("x-tag", "2")]⟩, [1]⟩
    let more : Request := { request with headers := request.headers.append "x-tag" "3" }
    (request.inbound 80).SameView (other.inbound 80) ∧
      (request.inbound 80).ShownBy (more.inbound 80) ∧
      s.matchesRequest 80 request = true ∧ s.matchesRequest 80 other = true ∧
      s.matchesRequest 80 more = true ∧
      (forRequest rules 80 other).map Rule.name = ["tag", "other"] := by
  intro s rules request other more
  have hfolded : request.headers.foldedPairs = [("x-tag", "1"), ("x-tag", "2")] := by
    decide +kernel
  have hfolded' : other.headers.foldedPairs =
      [("x-tag", "2"), ("x-tag", "1"), ("x-tag", "2")] := by decide +kernel
  have hsame : (request.inbound 80).SameView (other.inbound 80) := by
    refine ⟨rfl, rfl, rfl, fun pair => ?_⟩
    change pair ∈ request.headers.foldedPairs ↔ pair ∈ other.headers.foldedPairs
    rw [hfolded, hfolded']
    simp only [List.mem_cons, List.not_mem_nil, or_false]
    tauto
  have hmore : (request.inbound 80).ShownBy (more.inbound 80) :=
    ⟨rfl, rfl, rfl, Headers.foldedPairs_subset_of_sublist (List.sublist_append_left _ _)⟩
  have hmatches : s.matchesRequest 80 request = true := by decide +kernel
  have hnames : (forRequest rules 80 request).map Rule.name = ["tag", "other"] := by
    decide +kernel
  obtain ⟨hview, -, -, hadded, -⟩ := select_by_view
  obtain ⟨hselectors, hrules⟩ := hview 80 request other hsame
  obtain ⟨hkeeps, -⟩ := hadded 80 request more hmore
  exact ⟨hsame, hmore, hmatches, hselectors s ▸ hmatches, hkeeps s hmatches,
    hrules rules ▸ hnames⟩

end Rule

end FaultInjection
