import RequestRunner.Generator.Draw
import RequestRunner.Proofs.Engine.Persistence
import RequestRunner.Proofs.Run.World

/-!
# Values that outlive their request

A script sets a persisted variable, and later no script sets or removes it again. Between two
requests the persisted store is emptied into a listing and filled from it again, so that the value
passes through as many listings as there are requests. Main statement: every later script reads the
copy of the value, and the one map that is saved has it, unless the name is the reserved one; that
name is lost with the first listing (`persisted_value_outlives_requests`).
-/

set_option autoImplicit false

namespace RequestRunner

namespace Host.Course

variable {h t : Host} {name : String} {value : Json} {events : List HostEvent}

/-- What is there after a value was stored that nothing touches afterwards. -/
theorem get?_of_written
    (course : Course h (.call (.write .persisted (some name) (some value)) () :: events) t)
    (hsound : Sound h) (huntouched : ∀ event ∈ events, ¬ event.Touches name)
    (hcopy : value.copy = value) (hnull : value.isNull = false) :
    (name ≠ reservedKey ∨ .renewed ∉ events → t.persisted.get? name = some value) ∧
      (name = reservedKey → .renewed ∈ events → t.persisted.get? name = none) := by
  obtain ⟨-, htail⟩ := course.call_inv
  have hwritten : Sound (h.effect (.write .persisted (some name) (some value))) :=
    Course.sound (.call _ (.nil _)) hsound
  have hkept : ∀ event ∈ events, ¬ event.Stores name ∧ ¬ event.Removes name :=
    fun event hmem => HostEvent.kept_of_untouched (huntouched event hmem)
  exact htail.get?_of_kept hwritten hkept hcopy hnull
    (get?_effect_write hsound.writable name hnull)

/-- What a later script reads then. -/
theorem read_of_written {between rest : List HostEvent} {reply : Option Json}
    (course : Course h (.call (.write .persisted (some name) (some value)) () ::
      (between ++ .call (.read .persisted (some name)) reply :: rest)) t)
    (hsound : Sound h) (huntouched : ∀ event ∈ between, ¬ event.Touches name)
    (hcopy : value.copy = value) (hnull : value.isNull = false) :
    (name ≠ reservedKey ∨ .renewed ∉ between → reply = some value) ∧
      (name = reservedKey → .renewed ∈ between → reply = h.environment.get? name) := by
  rw [← List.cons_append] at course
  obtain ⟨u, hbefore, hread⟩ := course.exists_of_append
  obtain ⟨rfl, -⟩ := hread.call_inv
  obtain ⟨hstays, hlost⟩ := hbefore.get?_of_written hsound huntouched hcopy hnull
  constructor
  · intro hkept
    exact answer_read_some hnull (hstays hkept)
  · intro hname hrenewed
    rw [← hbefore.environment]
    exact answer_read_none (hlost hname hrenewed)

end Host.Course

namespace Session

variable {C W : Type} {language : Language C} {outside : Outside (StateM W)}
  {items : Except Fault (List RunItem)}

/-- An engine starts with one value for every name. -/
theorem sound_of_new {initial environment : VariableMap} {now : Int} {entropy : Entropy}
    {engine : Engine C} (hnames : (Fields.names initial).Nodup)
    (hnew : Engine.new language initial environment now entropy = .ok engine) :
    engine.host.Sound := by
  obtain ⟨-, rfl⟩ := Engine.new_inv hnew
  exact ⟨rfl, (Store.represents_keep hnames).nodup⟩

/-- **A persisted value outlives its request.** If a script of a run stores a value and no later
script sets or removes its name, the run saves exactly one map, and unless the name is the reserved
one, that map holds the copy of the value and so does every later reading. The reserved name is in
no saved map, and after the next request has started only the environment can answer for it. -/
theorem persisted_value_outlives_requests {initial environment : VariableMap} {now : Int}
    {entropy : Entropy} {s : Session C} {w : W} {t : Session C × W} {calls : List CrewCall}
    {result : Except Fault (List RequestResult)} {before after : List HostEvent} {name : String}
    {value : Datum} {copy : Json} (hnames : (Fields.names initial).Nodup)
    (hnew : Engine.new language initial environment now entropy = .ok s.engine)
    (hrun : (Run.execute (watchedCrew language outside items)).run.run ((s, w), []) =
      (result, (t, calls)))
    (hstored : value.stored? = some copy)
    (hhistory : s.engine.history language calls =
      before ++ .call (.write .persisted (some name) value.json?) () :: after)
    (huntouched : ∀ event ∈ after, ¬ event.Touches name) :
    ∃ kept, (∀ other, .save other ∈ calls ↔ other = kept) ∧
      (name ≠ reservedKey → Fields.get? name kept = some copy ∧
        ∀ reply, .call (.read .persisted (some name)) reply ∈ after → reply = some copy) ∧
      (name = reservedKey → Fields.get? name kept = none ∧
        ∀ between reply rest,
          after = between ++ .call (.read .persisted (some name)) reply :: rest →
          .renewed ∈ between → reply = s.engine.host.environment.get? name) := by
  obtain ⟨hjson, hnull⟩ := Option.filter_eq_some_iff.1 hstored
  rw [Bool.not_eq_true'] at hnull
  have hcopy := value.copy_of_json? copy hjson
  have hsound := sound_of_new hnames hnew
  have hcourse := Engine.course_history language s.engine calls
  rw [hhistory, hjson] at hcourse
  -- the host where the value is stored
  obtain ⟨u, hbefore, hwritten⟩ := hcourse.exists_of_append
  have husound := hbefore.sound hsound
  -- what the listing of the last engine carries
  have hkept : Fields.get? name t.1.engine.snapshot =
      if name = reservedKey then none else t.1.engine.host.persisted.get? name := by
    rw [engine_of_run hrun]
    exact Store.get?_toMap (hcourse.sound hsound).nodup name
  refine ⟨t.1.engine.snapshot, save_mem_iff hrun, ?_, ?_⟩
  · intro hname
    constructor
    · rw [hkept, if_neg hname, engine_of_run hrun]
      exact (hwritten.get?_of_written husound huntouched hcopy hnull).1 (Or.inl hname)
    · intro reply hmem
      obtain ⟨between, rest, rfl⟩ := List.append_of_mem hmem
      have hbetween : ∀ event ∈ between, ¬ event.Touches name :=
        fun event hevent => huntouched event (List.mem_append_left _ hevent)
      exact (hwritten.read_of_written husound hbetween hcopy hnull).1 (Or.inl hname)
  · intro hname
    constructor
    · rw [hkept, if_pos hname]
    · rintro between reply rest rfl hrenewed
      have hbetween : ∀ event ∈ between, ¬ event.Touches name :=
        fun event hevent => huntouched event (List.mem_append_left _ hevent)
      rw [← hbefore.environment]
      exact (hwritten.read_of_written husound hbetween hcopy hnull).2 hname hrenewed

/-- One script sets a token and the reserved name, the other one reads both. -/
def tokenScripts : String → List HostCall
  | "set" => [.write .persisted (some "token") (some (.text "abc")),
      .write .persisted (some reservedKey) (some (.text "lost"))]
  | "get" => [.read .persisted (some "token"), .read .persisted (some reservedKey)]
  | _ => []

/-- A session without variables. -/
def tokenSession : Session Unit :=
  ⟨⟨⟨Store.ofMap [] false, Store.empty, Store.ofMap [] true, Report.empty, [], 0, .seeded 1⟩, ()⟩,
    Printer.new .table⟩

/-- The collaborators of a run of two requests, the first of which sets what the second one
reads. -/
def tokenCrew : Collaborators (StateM ((Session Unit × Unit) × List CrewCall)) :=
  watchedCrew (Language.ofCalls tokenScripts) (Outside.replying ⟨"HTTP/1.1", 200, "OK", [], none⟩)
    (.ok [.handling "first" none (some "set"), .handling "second" (some "get") none])

/-- That run. -/
def tokenRun : Except Fault (List RequestResult) × ((Session Unit × Unit) × List CrewCall) :=
  (Run.execute tokenCrew).run.run ((tokenSession, ()), [])

/-- What happens to the host in that run behind the setting of the reserved name. -/
def tokenReadings : List HostEvent :=
  [.drained, .renewed, .call (.read .persisted (some "token")) (some (.text "abc")),
    .call (.read .persisted (some reservedKey)) none, .drained, .renewed]

/-- The token is saved, the reserved name is not. -/
theorem persisted_value_outlives_requests_token :
    (∃ kept, (∀ other, .save other ∈ tokenRun.2.2 ↔ other = kept) ∧
        Fields.get? "token" kept = some (.text "abc")) ∧
      ∃ kept, (∀ other, .save other ∈ tokenRun.2.2 ↔ other = kept) ∧
        Fields.get? reservedKey kept = none := by
  have hnew : Engine.new (Language.ofCalls tokenScripts) [] [] 0 (.seeded 1) =
      .ok tokenSession.engine := rfl
  have hrun : (Run.execute tokenCrew).run.run ((tokenSession, ()), []) =
      (tokenRun.1, (tokenRun.2.1, tokenRun.2.2)) := rfl
  have hhistory : tokenSession.engine.history (Language.ofCalls tokenScripts) tokenRun.2.2 =
      [] ++ .call (.write .persisted (some "token") (Datum.text "abc").json?) () ::
        .call (.write .persisted (some reservedKey) (Datum.text "lost").json?) () ::
          tokenReadings := by
    with_unfolding_all rfl
  constructor
  · have huntouched : ∀ event ∈ .call (.write .persisted (some reservedKey)
        (Datum.text "lost").json?) () :: tokenReadings, ¬ event.Touches "token" := by
      simp [tokenReadings, HostEvent.Touches, reservedKey]
    have hstored : (Datum.text "abc").stored? = some (.text "abc") := rfl
    obtain ⟨kept, hsaved, hkept, -⟩ := persisted_value_outlives_requests (by decide) hnew hrun
      hstored hhistory huntouched
    exact ⟨kept, hsaved, (hkept (by decide)).1⟩
  · have hlater : [] ++ .call (.write .persisted (some "token") (Datum.text "abc").json?) () ::
        .call (.write .persisted (some reservedKey) (Datum.text "lost").json?) () ::
          tokenReadings =
        [.call (.write .persisted (some "token") (Datum.text "abc").json?) ()] ++
          .call (.write .persisted (some reservedKey) (Datum.text "lost").json?) () ::
            tokenReadings := rfl
    have huntouched : ∀ event ∈ tokenReadings, ¬ event.Touches reservedKey := by
      simp [tokenReadings, HostEvent.Touches]
    have hstored : (Datum.text "lost").stored? = some (.text "lost") := rfl
    obtain ⟨kept, hsaved, -, hkept⟩ := persisted_value_outlives_requests (by decide) hnew hrun
      hstored (hhistory.trans hlater) huntouched
    exact ⟨kept, hsaved, (hkept rfl).1⟩

end Session

end RequestRunner
