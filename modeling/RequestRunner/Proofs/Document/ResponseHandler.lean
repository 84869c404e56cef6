import RequestRunner.Proofs.Document.SectionUse

/-!
# The response handler and what precedes it

Headers and body end in front of the first line that opens a response handler, and on this line the
handler of the section begins (`SectionUse.KeepsHandler`). The lines that continue a target are the
one exception: a target takes in every indented line directly below it that is no comment, as long
as its text does not end with a version token, and so also an opening that is indented. What is kept
apart is therefore the first opening below the continuations, which are as many as the target can
take in (`Template.TakesIn`).
-/

set_option autoImplicit false

namespace RequestRunner

namespace SectionUse

/-- The response handler is kept apart from the headers and the body. Of the lines below the target,
the first that opens a handler is the one on which the handler of the section begins; when none
does, the section has no response handler. -/
structure KeepsHandler (use : SectionUse) (part : RequestSection) : Prop where
  headers : ∀ line ∈ use.headers, line.opensHandler = false
  body : ∀ line ∈ use.body, line.opensHandler = false
  first : ∃ above below,
    use.source.lines = above ++ (use.request :: use.continuations ++ below) ∧
      part.request.target.TakesIn use.request use.continuations below ∧
        below.find? Line.opensHandler = use.handler.head? ∧
          part.handler.map (fun handler => handler.selection.start) =
            (below.find? Line.opensHandler).map fun line => ⟨line.number, line.firstColumn⟩

variable {filename : String} {use : SectionUse} {part : RequestSection}

/-- The first opening among the lines of a handler and what is behind them. -/
theorem Arranges.find?_handler (h : use.Arranges filename part) {behind : List Line}
    (hbehind : part.handler = none → behind = []) :
    (use.handler ++ behind).find? Line.opensHandler = use.handler.head? ∧
      part.handler.map (fun handler => handler.selection.start) =
        use.handler.head?.map fun line => ⟨line.number, line.firstColumn⟩ := by
  cases hpart : part.handler with
  | none =>
    rw [hbehind hpart, h.handler.of_none hpart]
    exact ⟨rfl, rfl⟩
  | some handler =>
    obtain ⟨first, hfirst, hopens, hstart⟩ := (h.handler.of_some hpart).opens
    obtain ⟨rest, hrest⟩ := List.head?_eq_some_iff.1 hfirst
    have hopens : first.opensHandler = true := hopens
    constructor
    · rw [hfirst, hrest, List.cons_append, List.find?_cons_of_pos hopens]
    · rw [hfirst, Option.map_some, Option.map_some, hstart]

/-- **Lines that are arranged** keep the response handler apart. -/
theorem Arranges.keepsHandler (h : use.Arranges filename part) : use.KeepsHandler part := by
  obtain ⟨above, between, behind, hsplit, -, hends⟩ := h.split
  have hunopened : ∀ line ∈ use.headers ++ use.body, line.opensHandler = false :=
    fun line hline => hends.unopened line (hends.inOrder.subset hline)
  obtain ⟨hfind, hstart⟩ := h.find?_handler hends.behind
  -- the lines between the target and the handler open none
  have hfirst : (between ++ (use.handler ++ behind)).find? Line.opensHandler =
      use.handler.head? := by
    have hbetween : between.find? Line.opensHandler = none := by
      rw [List.find?_eq_none]
      intro line hline
      rw [hends.unopened line hline]
      exact Bool.false_ne_true
    rw [List.find?_append, hbetween, Option.none_or, hfind]
  refine ⟨fun line hline => hunopened line (List.mem_append_left _ hline),
    fun line hline => hunopened line (List.mem_append_right _ hline),
    above, between ++ (use.handler ++ behind), hsplit, hends.target, hfirst, ?_⟩
  rw [hstart, hfirst]

end SectionUse

/-- **A response handler is not swallowed by headers or a body.** When a source is read, each of its
sections with a significant line is put to use for one section of the document, in order, and none
of the lines that serve as headers or as the body opens a response handler. The first line below the
target that does is where the response handler begins. -/
theorem Document.read_keeps_handlers (filename source : String) (document : Document)
    (h : Document.read filename source = .ok document) :
    ∃ uses : List SectionUse,
      uses.map SectionUse.source =
          (sectionsOf (sourceLines source)).filter SectionLines.isSignificant ∧
        List.Forall₂ (fun use part => use.Serves filename part ∧ use.KeepsHandler part) uses
          document.sections := by
  obtain ⟨uses, hsources, harranges⟩ := Document.read_arranges h
  exact ⟨uses, hsources, harranges.imp fun _ _ hpart => ⟨hpart.serves, hpart.keepsHandler⟩⟩

/-- Two openings below a request line, the first of which is indented. -/
def openingSource : String := "GET a\n  > \x7b% f() %\x7d\n\n> \x7b% g() %\x7d"

/-- The target takes in the indented opening, and the response handler begins on the other one. -/
theorem Document.read_keeps_handlers_openingSource :
    ∃ document, Document.read "items.http" openingSource = .ok document ∧
      ∃ part ∈ document.sections, part.request.target.text = "a\n  > \x7b% f() %\x7d" ∧
        ∃ use : SectionUse, use.Serves "items.http" part ∧
          ∃ line, use.handler.head? = some line ∧ line.number = 4 := by
  have hread : (Document.read "items.http" openingSource).toOption.map (fun document =>
      document.sections.map fun part => (part.request.target.text,
        part.handler.map fun handler => handler.selection.start)) =
          some [("a\n  > \x7b% f() %\x7d", some ⟨4, 1⟩)] := by decide +kernel
  cases h : Document.read "items.http" openingSource with
  | error e =>
    rw [h] at hread
    cases hread
  | ok document =>
    obtain ⟨uses, -, hkeeps⟩ := Document.read_keeps_handlers "items.http" openingSource document h
    rw [h] at hread
    obtain ⟨part, hpart, heq⟩ := List.map_eq_singleton_iff.1 (Option.some.inj hread)
    obtain ⟨htarget, hhandler⟩ := Prod.mk.inj heq
    have hmem : part ∈ document.sections := hpart ▸ List.mem_cons_self
    obtain ⟨use, -, hserves, hkept⟩ := exists_of_mem_forall₂ hkeeps hmem
    obtain ⟨above, below, -, -, hfirst, hstart⟩ := hkept.first
    rw [hhandler, hfirst] at hstart
    obtain ⟨line, hline, hplace⟩ := Option.map_eq_some_iff.1 hstart.symm
    exact ⟨document, rfl, part, hmem, htarget, use, hserves, line, hline,
      congrArg Position.line hplace⟩

end RequestRunner
