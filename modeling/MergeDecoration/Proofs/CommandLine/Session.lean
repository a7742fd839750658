import MergeDecoration.CommandLine
import MergeDecoration.Proofs.CommandLine.Conversation
import MergeDecoration.Proofs.CommandLine.Dialogue
import MergeDecoration.Proofs.Config.Load
import MergeDecoration.Proofs.Decoration.Requests
import MergeDecoration.Proofs.Lists
import MergeDecoration.Proofs.Token.Resolution

/-!
What goes out over the session while a command line is carried out. Up to the point where a command
has its client nothing goes out; from there on the command holds one conversation, whatever comes of
it. One that is not to write anything sends requests that read alone.
-/
namespace MergeDecoration.CommandLine

open Stateful

/-- What is left to do for a command that has its client. -/
inductive Job
  | decorate (client : Gitlab.Client) (o : Decorate.Options) (config : Config)
    (analysis : Analysis)
  | discussions (client : Gitlab.Client) (project : String) (number : Int) (given : Parsed)

namespace Job

/-- Rehearsals are not to write anything, and neither is the table of discussions. -/
def isReadOnly : Job → Bool
  | decorate _ o _ _ => o.rehearse
  | discussions .. => true

def carryOut : Job → Action PUnit
  | decorate client o config analysis => do
    let number := (o.number.map Value.text).getD .null
    let program := MergeDecoration.decorate analysis o.project config number
    if o.rehearse then
      let (outcome, operations) ←
        Decorate.withFault Decorate.runFault (Decorate.rehearse client o.root program)
      Host.printAll (Operation.report operations)
      Host.print s!"[bold]Shadow run complete for {outcome.mergeRequestUrl.shown}[/bold]"
    else
      let outcome ← Decorate.withFault Decorate.runFault (Decorate.runLive client o.root program)
      Host.print s!"\n[green]Decorated {outcome.mergeRequestUrl.shown}[/green]"
      Host.print (s!"  {outcome.created} created · {outcome.resolved} resolved · " ++
        s!"{outcome.noted} flagged · summary {outcome.summary.name}")
  | discussions client project number given => do
    let (m, user, raw) ← Decorate.withFault Discussions.readFault
      (Decorate.runLive client "." (Discussions.program project number))
    let key := given.value? "--project-key"
    let classified ← Discussions.classify user.username key raw
    let shown := if given.has "--all" then classified else classified.filter (·.isMachineOwned)
    if shown.isEmpty then
      Host.print s!"[yellow]No discussions by {user.username.shown} found.[/yellow]"
    else
      let rows ← Discussions.rowsOf key shown
      Host.display (.table ⟨s!"Discussions — {m.webUrl.shown}", Discussions.columns, rows⟩)

/-- Do what is left, if anything is. -/
def finish : Option Job → Action PUnit
  | none => return
  | some job => job.carryOut

end Job

/-- The way of the command up to its client; there is no job if it only shows its usage. -/
def Decorate.prepare (c : Config) (words : List String) : Action (Option Job) := do
  let given ← (parse params true words).mapError Fault.usage
  if given.has "--help" then
    Host.say "Usage: mrdecor decorate [OPTIONS]\n"
    return none
  let o ← (read (← get).folder given).mapError Fault.usage
  let (config, warnings) ← override c o
  warnings.forM Host.record
  let analysis ← withFault reportFault (Analysis.load o.report)
  let client ← connect c
  return some (.decorate client o config analysis)

theorem Decorate.run_eq (c : Config) (words : List String) :
    Decorate.run c words = Decorate.prepare c words >>= Job.finish := by
  unfold Decorate.run Decorate.prepare
  simp only [bind_assoc]
  congr 1
  funext given
  split
  · rfl
  · simp only [bind_assoc, pure_bind]
    rfl

/-- The way of the command up to its client; there is no job if it only shows its usage. -/
def Discussions.prepare (c : Config) (words : List String) : Action (Option Job) := do
  let given ← (parse params true words).mapError Fault.usage
  if given.has "--help" then
    Host.say "Usage: mrdecor discussions [OPTIONS]\n"
    return none
  let (project, number) ← (readPlace given).mapError Fault.usage
  let client ← connect c
  return some (.discussions client project number given)

theorem Discussions.run_eq (c : Config) (words : List String) :
    Discussions.run c words = Discussions.prepare c words >>= Job.finish := by
  unfold Discussions.run Discussions.prepare
  simp only [bind_assoc]
  congr 1
  funext given
  split
  · rfl
  · simp only [bind_assoc, pure_bind]
    rfl

/-- The ways of the commands up to their clients; the third command has none. -/
def preparations : List (String × (Config → List String → Action (Option Job))) :=
  [("decorate", Decorate.prepare), ("discussions", Discussions.prepare),
    ("init", fun _ words => do
      Init.run words
      return none)]

/-- The way of a command line up to the client of its command. -/
def approach (words : List String) : Action (Option Job) := do
  if words.isEmpty then throw (.usage .noArguments)
  let given ← (parse params false words).mapError Fault.usage
  if ← answersAtOnce given then return none
  match given.rest with
  | [] => throw (.usage .missingCommand)
  | name :: rest =>
    match preparations.lookup name with
    | none =>
      if looksLikeOption name then
        let again ← (parse params false given.rest).mapError Fault.usage
        if ← answersAtOnce again then return none
      throw (.usage (.noSuchCommand name (Similar.among (commands.map (·.1)) name)))
    | some prepare =>
      modify fun h => { h with verbose := given.has "--verbose" }
      let named ← Host.filled? "MRDECOR_CONFIG"
      let path := ((given.value? "--config").or named).getD Config.fileName
      prepare (← settings path) rest

theorem lookup_commands (name : String) :
    commands.lookup name =
      (preparations.lookup name).map fun prepare c words => prepare c words >>= Job.finish := by
  have hinit (words : List String) :
      Init.run words = (do Init.run words; return none) >>= Job.finish := by
    simp only [bind_assoc, pure_bind]
    exact (bind_pure _).symm
  have hcommands : commands = preparations.map fun e => (e.1, fun c words =>
      e.2 c words >>= Job.finish) := by
    simp only [commands, preparations, List.map_cons, List.map_nil, ← hinit, ← Decorate.run_eq,
      ← Discussions.run_eq]
  rw [hcommands]
  exact lookup_map (fun prepare c words => prepare c words >>= Job.finish) preparations name

theorem run_eq (words : List String) : run words = approach words >>= Job.finish := by
  -- Both sides go the same way up to the command, and nothing is left where they end before it.
  unfold run approach
  split
  · rfl
  · simp only [bind_assoc]
    congr 1
    funext given
    congr 1
    funext b
    split
    · rfl
    cases given.rest with
    | nil => rfl
    | cons name rest =>
      simp only [lookup_commands]
      cases preparations.lookup name with
      | none =>
        dsimp only [Option.map_none]
        split
        · simp only [bind_assoc]
          congr 1
          funext again
          congr 1
          funext b
          split <;> rfl
        · rfl
      | some prepare => simp only [Option.map_some, bind_assoc]

theorem withFault_apply {α : Type} (change : Fault → Fault) (x : Action α) (h : Host) :
    Decorate.withFault change x h = ((x h).1.mapError change, (x h).2) := rfl

theorem keeps_settings (path : String) : Leads Host.Keeps (settings path) := by
  refine .bind (Config.keeps_load path []) fun c => ?_
  refine .bind (Token.keeps_resolve _) fun found => ?_
  cases found with
  | some token => exact .pure _
  | none => exact .pure _

theorem keeps_answersAtOnce (p : Parsed) : Leads Host.Keeps (answersAtOnce p) := by
  unfold answersAtOnce
  split
  · exact .pure _
  · exact .bind (Host.keeps_say _) fun _ => .pure _

/-- What a report is read as is told by the files. -/
theorem load_report (path : String) (h : Host) :
    (Analysis.load path h : Except Fault Analysis × Host).1 =
      (h.folder.readText path >>= fun
        | none => .error (.missingReport path)
        | some text => Analysis.ofReport text) := by
  cases hread : h.folder.readText path with
  | error e => exact congrArg Prod.fst (bind_of_error (congrArg (·, h) hread))
  | ok file =>
    refine (congrArg Prod.fst (bind_of_ok (congrArg (·, h) hread))).trans ?_
    cases file with
    | none => rfl
    | some text =>
      simp only [ok_bind]
      cases Analysis.ofReport text with
      | error e => exact congrArg Prod.fst (bind_of_error (lift_apply _ h))
      | ok a => exact congrArg Prod.fst (bind_of_ok (lift_apply _ h))

theorem keeps_load_report (path : String) : Leads Host.Keeps (Analysis.load path) := by
  refine .bind (Host.keeps_readText path) fun file => ?_
  cases file with
  | none => exact .throw _
  | some text => exact .bind (.lift _) fun a => .bind (Host.keeps_debug _) fun _ => .pure _

/-- The session is left alone, and a decoration is reached only with the report that is there. -/
structure Arrived (h : Host) (x : Except Fault (Option Job)) (h' : Host) : Prop where
  session : h'.session = h.session
  report : ∀ client o config analysis, x = .ok (some (.decorate client o config analysis)) →
    (Analysis.load o.report h : Except Fault Analysis × Host).1 = .ok analysis

def Arrives (x : Action (Option Job)) : Prop := ∀ h, Arrived h (x h).1 (x h).2

section

variable {α : Type} {x : Action α} {next : α → Action (Option Job)} {h t h' : Host} {f : Fault}
  {reached : Except Fault (Option Job)}

theorem arrived_error (hsession : h'.session = h.session) : Arrived h (.error f) h' :=
  ⟨hsession, by rintro _ _ _ _ ⟨⟩⟩

theorem arrived_none (hsession : h'.session = h.session) : Arrived h (.ok none) h' :=
  ⟨hsession, by rintro _ _ _ _ ⟨⟩⟩

theorem Arrived.of_keeps (harrived : Arrived t reached h') (hkeeps : h.Keeps t) :
    Arrived h reached h' where
  session := harrived.session.trans hkeeps.session
  report client o config analysis hreached := by
    rw [load_report, ← hkeeps.folder, ← load_report]
    exact harrived.report client o config analysis hreached

theorem arrives_bind (hx : Leads Host.Keeps x) (hnext : ∀ a, Arrives (next a)) :
    Arrives (x >>= next) := by
  intro h
  apply bind_cases (motive := fun r => Arrived h r.1 r.2)
  · exact fun e t hxh => arrived_error (hx.of_eq hxh).session
  · exact fun a t hxh => (hnext a t).of_keeps (hx.of_eq hxh)

end

theorem arrives_none : Arrives (return none) := fun _ => arrived_none rfl

theorem arrives_throw (f : Fault) : Arrives (throw f) := fun _ => arrived_error rfl

/-- From the report on, the way leads to the decoration with the report that was read. -/
theorem arrives_report (c : Config) (o : Decorate.Options) (config : Config) :
    Arrives (do
      let analysis ← Decorate.withFault Decorate.reportFault (Analysis.load o.report)
      let client ← connect c
      return some (.decorate client o config analysis)) := by
  intro h
  have hsession := (keeps_load_report o.report h).session
  have hfirst := withFault_apply Decorate.reportFault (Analysis.load o.report) h
  rcases hload : Analysis.load o.report h with ⟨e | analysis, t⟩
  · rw [hload] at hsession hfirst
    rw [bind_of_error hfirst]
    exact arrived_error hsession
  · rw [hload] at hsession hfirst
    rw [bind_of_ok hfirst]
    cases connect c with
    | error e =>
      rw [bind_of_error (lift_apply _ t)]
      exact arrived_error hsession
    | ok client =>
      rw [bind_of_ok (lift_apply _ t)]
      refine ⟨hsession, ?_⟩
      rintro _ _ _ _ ⟨⟩
      rw [hload]

theorem arrives_decorate (c : Config) (words : List String) :
    Arrives (Decorate.prepare c words) := by
  refine arrives_bind (.lift _) fun given => ?_
  split
  · exact arrives_bind (Host.keeps_say _) fun _ => arrives_none
  refine arrives_bind .get fun h => arrives_bind (.lift _) fun o => ?_
  refine arrives_bind (.lift _) fun merged => ?_
  exact arrives_bind (.forM merged.2 Host.keeps_record) fun _ => arrives_report c o merged.1

theorem arrives_discussions (c : Config) (words : List String) :
    Arrives (Discussions.prepare c words) := by
  refine arrives_bind (.lift _) fun given => ?_
  split
  · exact arrives_bind (Host.keeps_say _) fun _ => arrives_none
  refine arrives_bind (.lift _) fun place => arrives_bind (.lift _) fun client => ?_
  exact fun _ => ⟨rfl, by rintro _ _ _ _ ⟨⟩⟩

theorem arrives_init (words : List String) :
    Arrives (do
      Init.run words
      return none) := by
  intro h
  have hkeeps := Init.keepsSession_run words
  apply bind_cases (motive := fun r => Arrived h r.1 r.2)
  · exact fun e t hrun => arrived_error (hkeeps.of_eq hrun)
  · exact fun a t hrun => arrived_none (hkeeps.of_eq hrun)

theorem arrives_preparations {name : String} {prepare : Config → List String → Action (Option Job)}
    (h : preparations.lookup name = some prepare) (c : Config) (words : List String) :
    Arrives (prepare c words) := by
  have hmem : (name, prepare) ∈ preparations := by
    obtain ⟨before, after, heq, -⟩ := List.lookup_eq_some_iff.mp h
    simp [heq]
  simp only [preparations, List.mem_cons, List.not_mem_nil, or_false, Prod.mk.injEq] at hmem
  rcases hmem with ⟨-, rfl⟩ | ⟨-, rfl⟩ | ⟨-, rfl⟩
  · exact arrives_decorate c words
  · exact arrives_discussions c words
  · exact arrives_init words

theorem arrives_approach (words : List String) : Arrives (approach words) := by
  unfold approach
  split
  · exact fun _ => arrived_error rfl
  refine arrives_bind (.lift _) fun given => ?_
  refine arrives_bind (keeps_answersAtOnce given) fun b => ?_
  split
  · exact arrives_none
  split
  · exact arrives_throw _
  split
  · split
    · refine arrives_bind (.lift _) fun again => ?_
      refine arrives_bind (keeps_answersAtOnce again) fun b => ?_
      split
      · exact arrives_none
      · exact arrives_throw _
    · exact arrives_throw _
  · next hlookup =>
    refine arrives_bind (.modify fun _ => ⟨rfl, rfl⟩) fun _ => ?_
    refine arrives_bind (Host.keeps_filled? _) fun named => ?_
    exact arrives_bind (keeps_settings _) fun c => arrives_preparations hlookup c _

theorem keeps_classify (username : Value) (project : Option String) (ds : List Discussion) :
    Leads Host.Keeps (Discussions.classify username project ds) := by
  induction ds with
  | nil => exact .pure _
  | cons d rest ih =>
    refine .bind (.lift _) fun classified => .bind (Host.keeps_debug _) fun _ => ?_
    exact .bind ih fun _ => .pure _

/-- The table asks for what it reads, and for nothing else. -/
theorem asks_discussions (project : String) (number : Int) :
    (Discussions.program project number).Asks (fun r => r.isWrite = false ∧ r ≠ .close)
      fun _ => True := by
  refine .ask ⟨rfl, nofun⟩ (fun e => ⟨e, rfl⟩) fun m => ?_
  refine .ask ⟨rfl, nofun⟩ (fun e => ⟨e, rfl⟩) fun user => ?_
  exact .ask ⟨rfl, nofun⟩ (fun e => ⟨e, rfl⟩) fun raw => .done trivial

theorem converses_bind {α β : Type} {P : Web.Request → Prop} {x : Action α} {next : α → Action β}
    {h : Host} (hx : h.Converses P (x h).2) (hnext : ∀ a, Leads Host.Keeps (next a)) :
    h.Converses P ((x >>= next) h).2 := by
  apply bind_cases (motive := fun r => h.Converses P r.2)
  · intro e t hxh
    rwa [hxh] at hx
  · intro a t hxh
    rw [hxh] at hx
    exact hx.of_session (hnext a t).session

/-- A command that has its client holds one conversation, and one that is not to write anything
reads alone. -/
theorem converses_carryOut (job : Job) (h : Host) :
    h.Converses (fun q => job.isReadOnly = true → q.method = "GET") (job.carryOut h).2 := by
  cases job with
  | decorate client o config analysis =>
    have hasks := (failStop_decorate analysis o.project config
      ((o.number.map Value.text).getD .null)).asks
    cases hrehearse : o.rehearse with
    | true =>
      simp only [Job.carryOut, Job.isReadOnly, hrehearse, if_true, forall_const]
      refine converses_bind ?_ fun outcome => ?_
      · simp only [withFault_apply]
        exact Decorate.converses_rehearse hasks h
      · exact .bind (Host.keeps_printAll _) fun _ => Host.keeps_print _
    | false =>
      simp only [Job.carryOut, Job.isReadOnly, hrehearse, Bool.false_eq_true, if_false]
      refine converses_bind ?_ fun outcome => ?_
      · simp only [withFault_apply]
        exact Decorate.converses_runLive hasks (fun r hr => hr) (fun r hr q hq => nofun) h
      · exact .bind (Host.keeps_print _) fun _ => Host.keeps_print _
  | discussions client project number given =>
    simp only [Job.carryOut, Job.isReadOnly, forall_const]
    refine converses_bind ?_ fun answers => ?_
    · simp only [withFault_apply]
      exact Decorate.converses_runLive (asks_discussions project number) (fun r hr => hr.2)
        (fun r hr q hq => hq hr.1) h
    · obtain ⟨m, user, raw⟩ := answers
      refine .bind (keeps_classify user.username (given.value? "--project-key") raw) fun cs => ?_
      generalize (if given.has "--all" then cs else cs.filter (·.isMachineOwned)) = shown
      split
      · exact Host.keeps_print _
      · exact .bind (.lift _) fun rows => Host.keeps_display _

/-- A command line goes up to the client of its command without a request. If there is no client it
stays so to the end; a decoration has none unless its report can be read. With a client the command
sends requests and closes the session after the last of them, once and in every case, and if it is
not to write anything then all of them read. -/
theorem run_session (words : List String) (h : Host) :
    let reached : Except Fault (Option Job) × Host := approach words h
    run words = approach words >>= Job.finish ∧
    reached.2.session = h.session ∧
    ((∀ job, reached.1 ≠ .ok (some job)) → (run words h).2.session = h.session) ∧
    (∀ client o config analysis, reached.1 = .ok (some (.decorate client o config analysis)) →
      (Analysis.load o.report h : Except Fault Analysis × Host).1 = .ok analysis) ∧
    ∀ job, reached.1 = .ok (some job) → ∃ rs : List Web.Request,
      (run words h).2.session.sent = h.session.sent ++ rs.map .request ++ [.close] ∧
      (job.isReadOnly = true → ∀ r ∈ rs, r.method = "GET") := by
  intro reached
  obtain ⟨hsession, hreport⟩ := arrives_approach words h
  refine ⟨run_eq words, hsession, ?_, hreport, ?_⟩
  · intro hnone
    rw [run_eq]
    rcases hreached : approach words h with ⟨e | found, t⟩
    · rw [hreached] at hsession
      rw [bind_of_error hreached]
      exact hsession
    · rw [hreached] at hsession
      rw [bind_of_ok hreached]
      cases found with
      | none => exact hsession
      | some job => exact absurd (congrArg Prod.fst hreached) (hnone job)
  -- The conversation starts where the way ends, with the session as it was.
  · intro job hjob
    rcases hreached : approach words h with ⟨x, t⟩
    rw [hreached] at hsession
    obtain rfl : x = .ok (some job) := (congrArg Prod.fst hreached).symm.trans hjob
    obtain ⟨rs, hsent, hrs⟩ := converses_carryOut job t
    refine ⟨rs, ?_, fun hread r hr => hrs r hr hread⟩
    rw [run_eq, bind_of_ok hreached, ← hsession]
    exact hsent

def rehearsalHost : Host where
  environment := [("GITLAB_TOKEN", "tok")]
  folder := Folder.ofTexts
    [("report.json", Text.Utf8.encode
      "\x7b\"project_key\":\"p\",\"pull_request_id\":\"5\"\x7d".toList)]

def rehearsalWords : List String :=
  ["decorate", "--project", "g/r", "--report", "report.json", "-s"]

def isRehearsal : Except Fault (Option Job) → Bool
  | .ok (some (.decorate _ o _ _)) => o.rehearse
  | _ => false

theorem exists_of_isRehearsal {x : Except Fault (Option Job)} (hx : isRehearsal x = true) :
    ∃ job, x = .ok (some job) ∧ job.isReadOnly = true := by
  unfold isRehearsal at hx
  split at hx
  · exact ⟨_, rfl, hx⟩
  · cases hx

/-- A rehearsal on a host whose instance does not answer: one request that reads, and the end. -/
theorem run_session_rehearsal :
    (∃ job, (approach rehearsalWords rehearsalHost : Except Fault (Option Job) × Host).1 =
        .ok (some job) ∧ job.isReadOnly = true) ∧
    ∃ r : Web.Request, (run rehearsalWords rehearsalHost).2.session.sent = [.request r, .close] ∧
      r.method = "GET" := by
  obtain ⟨job, hjob, hread⟩ := exists_of_isRehearsal
    (x := (approach rehearsalWords rehearsalHost : Except Fault (Option Job) × Host).1)
    (by decide +kernel)
  obtain ⟨-, -, -, -, hsent⟩ := run_session rehearsalWords rehearsalHost
  obtain ⟨rs, hrs, hget⟩ := hsent job hjob
  have hlength : (run rehearsalWords rehearsalHost).2.session.sent.length = 2 := by decide +kernel
  have hone : rs.length = 1 := by
    rw [hrs] at hlength
    simpa [rehearsalHost] using hlength
  obtain ⟨r, rfl⟩ := List.length_eq_one_iff.mp hone
  exact ⟨⟨job, hjob, hread⟩, r, hrs, hget hread r (List.mem_singleton_self r)⟩

end MergeDecoration.CommandLine
