import RequestRunner.Proofs.Document.LineUse

/-!
# Reading with a cursor

The lines of a section can also be read with a cursor that moves down over them. A reader then looks
whether there is a line at the cursor, and later takes it for granted that there is one: to step
beyond the last line would be a fault of its own, and no fault of the source
(`CursorFault.beyond`).

Such a reader agrees with the one that is given the lines from the cursor on
(`LineCursor.Agrees`): it gives the same result and leaves the same lines, or fails with the same
fault of the source. Each loop agrees by the induction along its own steps, and what goes on behind
a reader that agrees does so too (`LineCursor.Agrees.bind`). So a source is read with a cursor just
as it is read from its lines, and no step goes beyond the last line of a section
(`LineCursor.readDocument_eq`).
-/

set_option autoImplicit false

namespace RequestRunner

/-- What ends a reading with a cursor. -/
inductive CursorFault where
  /-- A fault of the source. -/
  | malformed (e : ParseError)
  /-- A step beyond the last line. -/
  | beyond
  deriving DecidableEq, Repr

/-- A cursor on the lines of a section. -/
structure LineCursor where
  /-- The lines of the section. -/
  lines : List Line
  /-- The index of the line at the cursor, from zero. -/
  index : Nat
  deriving DecidableEq, Repr

namespace LineCursor

/-- The line at the cursor, if there is one. -/
def current? (c : LineCursor) : Option Line := c.lines[c.index]?

/-- The line at the cursor, which has to be there. -/
def peek (c : LineCursor) : Except CursorFault Line :=
  match c.current? with
  | none => .error .beyond
  | some line => .ok line

/-- The cursor one line further down. -/
def next (c : LineCursor) : LineCursor := { c with index := c.index + 1 }

/-- The line at the cursor, which has to be there, and the cursor behind it. -/
def advance (c : LineCursor) : Except CursorFault (Line × LineCursor) := do
  let line ← c.peek
  pure (line, c.next)

/-- The lines from the cursor on. -/
def left (c : LineCursor) : List Line := c.lines.drop c.index

theorem left_of_none {c : LineCursor} (h : c.current? = none) : c.left = [] :=
  List.drop_eq_nil_of_le (List.getElem?_eq_none_iff.1 h)

theorem left_of_some {c : LineCursor} {line : Line} (h : c.current? = some line) :
    c.left = line :: c.next.left := by
  obtain ⟨hindex, rfl⟩ := List.getElem?_eq_some_iff.1 h
  exact List.drop_eq_getElem_cons hindex

theorem length_left_next {c : LineCursor} {line : Line} (h : c.current? = some line) :
    c.next.left.length < c.left.length := by
  rw [left_of_some h]
  exact Nat.lt_succ_self _

theorem peek_of_some {c : LineCursor} {line : Line} (h : c.current? = some line) :
    c.peek = .ok line := by
  rw [peek, h]

theorem advance_of_some {c : LineCursor} {line : Line} (h : c.current? = some line) :
    c.advance = .ok (line, c.next) := by
  rw [advance, peek_of_some h]
  rfl

/-! ## The readers -/

/-- Whether there is a line at the cursor that passes the test. -/
def test (p : Line → Bool) (c : LineCursor) : Except CursorFault Bool :=
  if c.current?.isSome then do
    let line ← c.peek
    pure (p line)
  else pure false

/-- The cursor behind blank lines and comments. -/
def skipTrivia (c : LineCursor) : LineCursor :=
  match _h : c.current? with
  | some line => if line.isTrivia then c.next.skipTrivia else c
  | none => c
termination_by c.left.length
decreasing_by exact length_left_next (by assumption)

theorem left_skipTrivia (c : LineCursor) : c.skipTrivia.left = RequestRunner.skipTrivia c.left := by
  fun_induction skipTrivia c with
  | case1 c line h htrivia ih =>
    rw [ih, left_of_some h, RequestRunner.skipTrivia, RequestRunner.skipTrivia,
      List.dropWhile_cons_of_pos htrivia]
  | case2 c line h htrivia =>
    rw [left_of_some h, skipTrivia_of_cons _ (Bool.eq_false_iff.2 htrivia)]
  | case3 c h =>
    rw [left_of_none h]
    rfl

theorem length_left_skipTrivia (c : LineCursor) : c.skipTrivia.left.length ≤ c.left.length := by
  rw [left_skipTrivia]
  exact (skipTrivia_suffix c.left).length_le

/-- The declarations from the cursor on. Blank lines and comments behind each are skipped. -/
def readDeclarations (filename : String) (c : LineCursor) :
    Except CursorFault (List Declaration × LineCursor) :=
  match _h : c.current? with
  | none => .ok ([], c)
  | some _ => do
    let here ← c.peek
    if here.opensDeclaration then
      let (line, _) ← c.advance
      match declarationParts? line.text with
      | none => .error (.malformed ⟨.invalidDeclaration, line.select filename⟩)
      | some (name, lead, raw) => do
        let value := Template.ofText filename raw ⟨line.number, Text.units lead + 1⟩
        let (more, c) ← readDeclarations filename c.next.skipTrivia
        pure ((String.ofList name, value) :: more, c)
    else .ok ([], c)
termination_by c.left.length
decreasing_by exact Nat.lt_of_le_of_lt (length_left_skipTrivia _) (length_left_next (by assumption))

/-- The script text of a handler, from what is left of the current line on. -/
def readScript (filename : String) (marker : Marker) (opening : Selection) (line : Line)
    (inside : List Char) (c : LineCursor) :
    Except CursorFault (List Char × Position × LineCursor) :=
  match Text.cut? scriptEnd inside with
  | some (script, trailing) =>
    if Text.allBlank trailing then
      .ok (script, ⟨line.number, Text.units line.text - Text.units trailing + 1⟩, c)
    else .error (.malformed ⟨.textAfterHandler marker, line.select filename⟩)
  | none =>
    match _h : c.current? with
    | none => .error (.malformed ⟨.unterminatedHandler, opening⟩)
    | some _ => do
      let (below, _) ← c.advance
      let (script, stop, c) ← readScript filename marker opening below below.text c.next
      pure (inside ++ '\n' :: script, stop, c)
termination_by c.left.length
decreasing_by exact length_left_next (by assumption)

/-- The handler that the line at the cursor opens. -/
def readHandler (filename : String) (marker : Marker) (c : LineCursor) :
    Except CursorFault (Handler × LineCursor) := do
  let (line, c) ← c.advance
  let (before, inside) := (Text.cut? scriptStart line.text).getD ([], line.text)
  let start : Position := ⟨line.number, line.firstColumn⟩
  let opening : Selection := ⟨filename, start, ⟨line.number, Text.units before + 3⟩⟩
  let (script, stop, c) ← readScript filename marker opening line inside c
  pure (⟨String.ofList (Text.trim script), ⟨filename, start, stop⟩⟩, c)

/-- The handler at the cursor, if the next significant line opens one. -/
def readHandler? (filename : String) (marker : Marker) (c : LineCursor) :
    Except CursorFault (Option Handler × LineCursor) := do
  let c := c.skipTrivia
  if ← c.test (Line.opensScript marker.char) then
    let (handler, c) ← c.readHandler filename marker
    pure (some handler, c)
  else pure (none, c)

/-- A target that grows by the lines at the cursor. -/
def extendTarget (text : List Char) (c : LineCursor) :
    Except CursorFault (List Char × LineCursor) :=
  if endsWithVersion text then .ok (text, c)
  else
    match _h : c.current? with
    | none => .ok (text, c)
    | some here =>
      if here.continuesTarget then do
        let (line, _) ← c.advance
        extendTarget (text ++ '\n' :: line.text) c.next
      else .ok (text, c)
termination_by c.left.length
decreasing_by exact length_left_next (by assumption)

/-- The headers from the cursor on. -/
def readHeaders (filename : String) (c : LineCursor) :
    Except CursorFault (List Header × LineCursor) :=
  match _h : c.current? with
  | none => .ok ([], c)
  | some here =>
    if here.isBlank || here.opensHandler then .ok ([], c)
    else do
      let (line, _) ← c.advance
      if line.isComment then readHeaders filename c.next
      else
        match readHeader? filename line with
        | none => .error (.malformed ⟨.expectedHeader, line.select filename⟩)
        | some header => do
          let (more, c) ← readHeaders filename c.next
          pure (header :: more, c)
termination_by c.left.length
decreasing_by all_goals exact length_left_next (by assumption)

/-- The lines from the cursor on that may belong to a body. -/
def takeBody (c : LineCursor) : Except CursorFault (List Line × LineCursor) :=
  match _h : c.current? with
  | none => .ok ([], c)
  | some here =>
    if here.opensHandler then .ok ([], c)
    else do
      let (line, _) ← c.advance
      let (more, c) ← takeBody c.next
      pure (line :: more, c)
termination_by c.left.length
decreasing_by exact length_left_next (by assumption)

/-- The request from the line at the cursor on. -/
def readRequest (filename : String) (c : LineCursor) :
    Except CursorFault (RequestTemplate × LineCursor) := do
  let (line, c) ← c.advance
  let start ← (readRequestLine filename line).mapError .malformed
  let (text, c) ← extendTarget start.text c
  let target := Template.ofText filename (cleanTarget text) ⟨line.number, start.column⟩
  let (headers, c) ← readHeaders filename c
  let (lines, c) ← c.takeBody
  let body := readBody filename lines
  let stop := match body, headers.getLast? with
    | some body, _ => body.selection.stop
    | none, some header => header.selection.stop
    | none, none => line.stop
  pure (⟨start.method, start.methodSelection, target, headers, body,
    ⟨filename, ⟨line.number, line.firstColumn⟩, stop⟩⟩, c)

/-- Whether a request can stand at the cursor. -/
def expectRequest (filename : String) (last : Line) (c : LineCursor) : Except CursorFault Unit :=
  match c.current? with
  | none => .error (.malformed ⟨.missingRequestLine, last.select filename⟩)
  | some line =>
    if line.opensHandler || line.opensPreHandler then
      .error (.malformed ⟨.missingRequestLine, line.select filename⟩)
    else if line.opensDeclaration then
      .error (.malformed ⟨.misplacedDeclaration, line.select filename⟩)
    else .ok ()

/-- Whether nothing is left at the cursor. -/
def expectNothing (filename : String) (c : LineCursor) : Except CursorFault Unit :=
  match c.current? with
  | none => .ok ()
  | some line => .error (.malformed ⟨.unexpectedContent, line.select filename⟩)

/-- A section whose first and last significant lines are given. -/
def readSignificant (filename : String) (source : SectionLines) (first last : Line) :
    Except CursorFault RequestSection := do
  let c : LineCursor := ⟨source.lines, 0⟩
  let (declarations, c) ← readDeclarations filename c.skipTrivia
  let (preHandler, c) ← c.readHandler? filename .before
  let c := c.skipTrivia
  c.expectRequest filename last
  let (request, c) ← c.readRequest filename
  let (handler, c) ← c.readHandler? filename .after
  c.skipTrivia.expectNothing filename
  let start := source.separator.getD first
  pure ⟨source.name, declarations, preHandler, request, handler,
    ⟨filename, ⟨start.number, 1⟩, last.stop⟩⟩

/-- A section, if it has a significant line. -/
def readSection (filename : String) (source : SectionLines) :
    Except CursorFault (Option RequestSection) :=
  match source.lines.filter fun line => !line.isTrivia with
  | [] => .ok none
  | first :: more => do
    let part ← readSignificant filename source first (more.getLast?.getD first)
    pure (some part)

/-- Sections in order. -/
def readSections (filename : String) :
    List SectionLines → Except CursorFault (List RequestSection)
  | [] => .ok []
  | source :: rest => do
    let part ← readSection filename source
    let more ← readSections filename rest
    pure (part.toList ++ more)

/-- A source. -/
def readDocument (filename source : String) : Except CursorFault Document := do
  let sections ← readSections filename (sectionsOf (sourceLines source))
  pure ⟨filename, sections⟩

/-! ## Agreement -/

/-- A result with the lines that are left in the place of the cursor. -/
def leaving {α : Type} (result : α × LineCursor) : α × List Line := (result.1, result.2.left)

/-- A reader with a cursor does what a reader of lines does: it fails with the same fault of the
source, or gives what is seen as the same result. -/
def Agrees {ρ σ : Type} (seen : ρ → σ) (x : Except CursorFault ρ) (y : Except ParseError σ) :
    Prop :=
  x.map seen = y.mapError .malformed

section Agreement

variable {ρ σ ρ' σ' : Type} {seen : ρ → σ} {seen' : ρ' → σ'} {x : Except CursorFault ρ}
  {y : Except ParseError σ}

theorem agrees_ok (result : ρ) : Agrees seen (.ok result) (.ok (seen result)) := rfl

theorem agrees_leaving {α : Type} (a : α) {c : LineCursor} {rest : List Line} (h : c.left = rest) :
    Agrees leaving (.ok (a, c)) (.ok (a, rest)) := by
  rw [← h]
  exact agrees_ok (a, c)

theorem agrees_error (e : ParseError) : Agrees seen (.error (.malformed e)) (.error e) := rfl

theorem ok_bind (result : ρ) (f : ρ → Except CursorFault ρ') : Except.ok result >>= f = f result :=
  rfl

/-- Readers that agree both fail, or both give the same result. -/
theorem Agrees.cases (h : Agrees seen x y) :
    (∃ e, x = .error (.malformed e) ∧ y = .error e) ∨
      ∃ result, x = .ok result ∧ y = .ok (seen result) := by
  cases y with
  | error e =>
    cases x with
    | error fault => exact Or.inl ⟨e, congrArg Except.error (Except.error.inj h), rfl⟩
    | ok result => cases h
  | ok found =>
    cases x with
    | error fault => cases h
    | ok result => exact Or.inr ⟨result, rfl, congrArg Except.ok (Except.ok.inj h).symm⟩

/-- **Readers that go on behind one another** agree if all of them do. -/
theorem Agrees.bind (h : Agrees seen x y) {f : ρ → Except CursorFault ρ'}
    {g : σ → Except ParseError σ'} (hnext : ∀ result, Agrees seen' (f result) (g (seen result))) :
    Agrees seen' (x >>= f) (y >>= g) := by
  rcases h.cases with ⟨e, rfl, rfl⟩ | ⟨result, rfl, rfl⟩
  · exact agrees_error e
  · exact hnext result

/-- A reader of lines that does not fail. -/
theorem Agrees.of_ok {found : σ} (h : Agrees seen x (.ok found)) :
    ∃ result, x = .ok result ∧ seen result = found := by
  rcases h.cases with ⟨e, -, hfails⟩ | ⟨result, hresult, hfound⟩
  · cases hfails
  · exact ⟨result, hresult, (Except.ok.inj hfound).symm⟩

/-- What reads no lines agrees with itself. -/
theorem agrees_mapError (y : Except ParseError σ) : Agrees id (y.mapError .malformed) y := by
  cases y <;> rfl

end Agreement

/-! ### Declarations -/

theorem isTrivia_of_current?_skipTrivia {c : LineCursor} {line : Line}
    (h : c.skipTrivia.current? = some line) : line.isTrivia = false := by
  have hleft := left_skipTrivia c
  rw [left_of_some h] at hleft
  exact isTrivia_of_skipTrivia hleft.symm

theorem readDeclarations_skipTrivia (filename : String) (lines : List Line) :
    RequestRunner.readDeclarations filename (RequestRunner.skipTrivia lines) =
      RequestRunner.readDeclarations filename lines := by
  induction lines with
  | nil => rfl
  | cons line rest ih =>
    cases htrivia : line.isTrivia with
    | true =>
      rw [RequestRunner.skipTrivia, List.dropWhile_cons_of_pos htrivia,
        RequestRunner.readDeclarations, if_pos htrivia]
      exact ih
    | false => rw [skipTrivia_of_cons _ htrivia]

/-- Declarations are read from the same lines. The cursor skips blank lines and comments before and
behind each of them, the reader of lines as it meets them; so they agree where the cursor has
skipped them. -/
theorem readDeclarations_agrees (filename : String) (c : LineCursor)
    (hsignificant : ∀ line, c.current? = some line → line.isTrivia = false) :
    Agrees leaving (readDeclarations filename c)
      (RequestRunner.readDeclarations filename c.left) := by
  fun_induction readDeclarations filename c with
  | case1 c h =>
    rw [left_of_none h]
    exact agrees_leaving [] (left_of_none h)
  | case2 c here h ih =>
    rw [left_of_some h, RequestRunner.readDeclarations, hsignificant here h, if_neg (by simp),
      peek_of_some h, ok_bind]
    split
    · -- behind the declaration, the cursor skips again
      have hnext := ih fun line => isTrivia_of_current?_skipTrivia
      rw [left_skipTrivia, readDeclarations_skipTrivia] at hnext
      rw [advance_of_some h, ok_bind]
      dsimp only
      cases declarationParts? here.text with
      | none => exact agrees_error _
      | some parts => exact hnext.bind fun _ => agrees_ok _
    · exact agrees_leaving [] (left_of_some h)

/-! ### Handlers -/

theorem readScript_agrees (filename : String) (marker : Marker) (opening : Selection) (line : Line)
    (inside : List Char) (c : LineCursor) :
    Agrees (fun result => (result.1, leaving result.2))
      (readScript filename marker opening line inside c)
      (RequestRunner.readScript filename marker opening line inside c.left) := by
  fun_induction readScript filename marker opening line inside c with
  | case1 line inside c script trailing hcut htrailing =>
    rw [RequestRunner.readScript_of_cut _ _ _ _ _ hcut, if_pos htrailing]
    exact agrees_ok (script, _, c)
  | case2 line inside c script trailing hcut htrailing =>
    rw [RequestRunner.readScript_of_cut _ _ _ _ _ hcut, if_neg htrailing]
    exact agrees_error _
  | case3 line inside c hcut hnone =>
    rw [scriptEnd] at hcut
    rw [left_of_none hnone, RequestRunner.readScript, hcut]
    exact agrees_error _
  | case4 line inside c hcut below hsome ih =>
    rw [advance_of_some hsome, ok_bind, left_of_some hsome, readScript_cons hcut]
    refine (ih below).bind fun result => ?_
    exact agrees_ok (inside ++ '\n' :: result.1, result.2)

theorem readHandler_agrees (filename : String) (marker : Marker) {c : LineCursor} {line : Line}
    (h : c.current? = some line) :
    Agrees leaving (c.readHandler filename marker)
      (RequestRunner.readHandler filename marker line c.next.left) := by
  rw [readHandler, RequestRunner.readHandler, advance_of_some h, ok_bind, scriptStart]
  exact (readScript_agrees _ _ _ _ _ _).bind fun _ => agrees_ok _

theorem readHandler?_agrees (filename : String) (marker : Marker) (c : LineCursor) :
    Agrees leaving (c.readHandler? filename marker)
      (RequestRunner.readHandler? filename marker c.left) := by
  rw [readHandler?, RequestRunner.readHandler?, ← left_skipTrivia, test]
  dsimp only
  cases h : c.skipTrivia.current? with
  | none =>
    rw [left_of_none h]
    exact agrees_leaving none (left_of_none h)
  | some line =>
    rw [left_of_some h, peek_of_some h, Option.isSome_some, if_pos rfl, ok_bind]
    dsimp only [pure, Except.pure]
    rw [ok_bind]
    split
    · exact (readHandler_agrees filename marker h).bind fun _ => agrees_ok _
    · exact agrees_leaving none (left_of_some h)

/-! ### Requests -/

/-- A target grows by the same lines. -/
theorem extendTarget_agrees (text : List Char) (c : LineCursor) :
    Agrees leaving (extendTarget text c) (.ok (RequestRunner.extendTarget text c.left)) := by
  fun_induction extendTarget text c with
  | case1 text c hversion =>
    rw [extendTarget_of_version c.left hversion]
    exact agrees_ok (text, c)
  | case2 text c hversion h =>
    rw [left_of_none h]
    exact agrees_leaving text (left_of_none h)
  | case3 text c hversion here h hcontinues ih =>
    rw [left_of_some h, RequestRunner.extendTarget, if_neg hversion, if_pos hcontinues,
      advance_of_some h]
    exact ih here
  | case4 text c hversion here h hcontinues =>
    rw [left_of_some h, RequestRunner.extendTarget, if_neg hversion, if_neg hcontinues]
    exact agrees_leaving text (left_of_some h)

theorem readHeaders_agrees (filename : String) (c : LineCursor) :
    Agrees leaving (readHeaders filename c) (RequestRunner.readHeaders filename c.left) := by
  fun_induction readHeaders filename c with
  | case1 c h =>
    rw [left_of_none h]
    exact agrees_leaving [] (left_of_none h)
  | case2 c here h hends =>
    rw [left_of_some h, RequestRunner.readHeaders, if_pos hends]
    exact agrees_leaving [] (left_of_some h)
  | case3 c here h hends ih =>
    rw [left_of_some h, RequestRunner.readHeaders, if_neg hends, advance_of_some h, ok_bind]
    dsimp only
    split
    · exact ih
    · cases readHeader? filename here with
      | none => exact agrees_error _
      | some header => exact ih.bind fun _ => agrees_ok _

/-- The body ends in front of the same line. -/
theorem takeBody_agrees (c : LineCursor) :
    Agrees leaving c.takeBody
      (.ok (c.left.takeWhile (fun l => !l.opensHandler),
        c.left.dropWhile fun l => !l.opensHandler)) := by
  fun_induction takeBody c with
  | case1 c h =>
    rw [left_of_none h]
    exact agrees_leaving [] (left_of_none h)
  | case2 c here h hopens =>
    rw [left_of_some h, List.takeWhile_cons_of_neg (by simp [hopens]),
      List.dropWhile_cons_of_neg (by simp [hopens])]
    exact agrees_leaving [] (left_of_some h)
  | case3 c here h hopens ih =>
    rw [left_of_some h, List.takeWhile_cons_of_pos (by simp [hopens]),
      List.dropWhile_cons_of_pos (by simp [hopens]), advance_of_some h, ok_bind]
    exact ih.bind (g := fun taken => .ok (here :: taken.1, taken.2)) fun _ => agrees_ok _

theorem readRequest_agrees (filename : String) {c : LineCursor} {line : Line}
    (h : c.current? = some line) :
    Agrees leaving (c.readRequest filename)
      (RequestRunner.readRequest filename line c.next.left) := by
  rw [readRequest, RequestRunner.readRequest, advance_of_some h, ok_bind]
  refine (agrees_mapError _).bind fun start => ?_
  obtain ⟨⟨text, below⟩, hextend, hbelow⟩ := (extendTarget_agrees start.text c.next).of_ok
  dsimp only [id]
  rw [hextend, ok_bind, ← hbelow]
  refine (readHeaders_agrees filename below).bind fun ⟨headers, behind⟩ => ?_
  obtain ⟨⟨lines, rest⟩, htake, hrest⟩ := (takeBody_agrees behind).of_ok
  obtain ⟨hlines, hrest⟩ := Prod.mk.inj hrest
  dsimp only [leaving]
  rw [htake, ok_bind, ← hlines, ← hrest]
  exact agrees_ok _

/-! ### Sections -/

/-- A request is expected on the same line, or missed with the same fault. -/
theorem expectRequest_cases (filename : String) (last : Line) (c : LineCursor) :
    (∃ e, c.skipTrivia.expectRequest filename last = .error (.malformed e) ∧
        RequestRunner.expectRequest filename last c.left = .error e) ∨
      ∃ line, c.skipTrivia.current? = some line ∧
        c.skipTrivia.expectRequest filename last = .ok () ∧
          RequestRunner.expectRequest filename last c.left =
            .ok (line, c.skipTrivia.next.left) := by
  rw [expectRequest, RequestRunner.expectRequest, ← left_skipTrivia]
  cases h : c.skipTrivia.current? with
  | none =>
    rw [left_of_none h]
    exact Or.inl ⟨_, rfl, rfl⟩
  | some line =>
    rw [left_of_some h]
    dsimp only
    split
    · exact Or.inl ⟨_, rfl, rfl⟩
    · split
      · exact Or.inl ⟨_, rfl, rfl⟩
      · exact Or.inr ⟨line, rfl, rfl, rfl⟩

theorem expectNothing_agrees (filename : String) (c : LineCursor) :
    Agrees id (c.skipTrivia.expectNothing filename)
      (RequestRunner.expectNothing filename c.left) := by
  rw [expectNothing, RequestRunner.expectNothing, ← left_skipTrivia]
  cases h : c.skipTrivia.current? with
  | none =>
    rw [left_of_none h]
    exact agrees_ok ()
  | some line =>
    rw [left_of_some h]
    exact agrees_error _

theorem readSignificant_agrees (filename : String) (source : SectionLines) (first last : Line) :
    Agrees id (readSignificant filename source first last)
      (RequestRunner.readSignificant filename source first last) := by
  rw [readSignificant, RequestRunner.readSignificant]
  have hdeclarations := readDeclarations_agrees filename (skipTrivia ⟨source.lines, 0⟩) fun _ =>
    isTrivia_of_current?_skipTrivia
  rw [left_skipTrivia, readDeclarations_skipTrivia] at hdeclarations
  refine hdeclarations.bind fun ⟨declarations, c⟩ => ?_
  refine (readHandler?_agrees filename .before c).bind fun ⟨preHandler, c⟩ => ?_
  dsimp only [leaving]
  rcases expectRequest_cases filename last c with
    ⟨e, hcursor, hlines⟩ | ⟨line, hline, hcursor, hlines⟩
  · rw [hcursor, hlines]
    exact agrees_error e
  · rw [hcursor, hlines, ok_bind]
    refine (readRequest_agrees filename hline).bind fun ⟨request, c⟩ => ?_
    refine (readHandler?_agrees filename .after c).bind fun ⟨handler, c⟩ => ?_
    exact (expectNothing_agrees filename c).bind fun _ => agrees_ok _

theorem readSection_agrees (filename : String) (source : SectionLines) :
    Agrees id (readSection filename source) (RequestRunner.readSection filename source) := by
  rw [readSection, RequestRunner.readSection]
  cases source.lines.filter fun line => !line.isTrivia with
  | nil => exact agrees_ok none
  | cons first more =>
    exact (readSignificant_agrees filename source _ _).bind fun part => agrees_ok (some part)

theorem readSections_agrees (filename : String) (sources : List SectionLines) :
    Agrees id (readSections filename sources) (RequestRunner.readSections filename sources) := by
  induction sources with
  | nil => exact agrees_ok []
  | cons source rest ih =>
    exact (readSection_agrees filename source).bind fun _ => ih.bind fun _ => agrees_ok _

/-- **Reading with a cursor is reading the lines**: a source gives the same document or fails with
the same fault, and no step goes beyond the last line of a section. -/
theorem readDocument_eq (filename source : String) :
    readDocument filename source = (Document.read filename source).mapError .malformed := by
  have hagrees : Agrees id (readDocument filename source) (Document.read filename source) :=
    (readSections_agrees filename _).bind fun _ => agrees_ok _
  rcases hagrees.cases with ⟨e, hcursor, hlines⟩ | ⟨document, hcursor, hlines⟩
  · rw [hcursor, hlines]
    rfl
  · rw [hcursor, hlines]
    rfl

end LineCursor

end RequestRunner
