import MergeDecoration.Proofs.Host.Action
import MergeDecoration.Token

/-!
How the search for a token ends. The variable settles it if it holds anything; otherwise one command
is started, and how that ends is how the search ends. A command that may not be started, output that
is no text, and an address that cannot be read, are faults of the search.
-/
namespace MergeDecoration.Token

open Stateful

variable {h : Host} {name url : Value} {token : String}

/-- The token that the variable holds; an empty one is none. -/
def given? (h : Host) : Option String := (h.environment.lookup variableName).filter (· != "")

theorem ne_empty_of_given? (hgiven : given? h = some token) : token ≠ "" := by
  obtain ⟨-, hne⟩ := Option.filter_eq_some_iff.mp hgiven
  simpa using hne

theorem printed?_eq_some {f : Finished} :
    printed? f = some token ↔ f.code = 0 ∧ Text.trim f.output = token ∧ token ≠ "" := by
  unfold printed?
  split_ifs with hcode
  · have hzero : f.code = 0 := by simpa using hcode
    simp only [Option.filter_eq_some_iff, Option.some.injEq, bne_iff_ne, hzero, true_and]
  · have hcode : f.code ≠ 0 := by simpa using hcode
    simp [hcode]

/-- What the end of the command means for the search. -/
def outcome : Except Fault (Except StartFault Finished) → Except Fault (Option String)
  | .error fault => .error fault
  | .ok (.error .missing) | .ok (.error (.timedOut _)) => .ok none
  | .ok (.error cause) => .error (.start cause "glab")
  | .ok (.ok f) => .ok (printed? f)

variable {x : Except Fault (Except StartFault Finished)}

theorem outcome_eq_some : outcome x = .ok (some token) ↔
    ∃ f, x = .ok (.ok f) ∧ f.code = 0 ∧ Text.trim f.output = token ∧ token ≠ "" := by
  rcases x with fault | cause | f
  · simp [outcome]
  · cases cause <;> simp [outcome]
  · simp [outcome, printed?_eq_some]

theorem outcome_eq_error {fault : Fault} : outcome x = .error fault ↔
    x = .error fault ∨ ∃ cause, x = .ok (.error cause) ∧ (cause = .forbidden ∨ cause = .failed) ∧
      fault = .start cause "glab" := by
  rcases x with fault | cause | f
  · simp [outcome]
  · cases cause <;> simp [outcome, eq_comm]
  · simp [outcome]

/-- What is logged about the end of the command. -/
def report (name : Value) : Except Fault (Option String) → List LogRecord
  | .ok (some _) => [⟨.debug, s!"Resolved GitLab token via glab CLI for {name.shown}."⟩]
  | _ => []

theorem resolve_of_given (url : Value) (hgiven : given? h = some token) :
    resolve url h = (.ok (some token), h) := by
  refine (bind_of_ok (Host.filled?_apply variableName h)).trans ?_
  rw [show (h.environment.lookup variableName).filter (· != "") = some token from hgiven]
  rfl

theorem resolve_of_unreadable {e : Fault} (hgiven : given? h = none) (hhost : host url = .error e) :
    resolve url h = (.error e, h) := by
  refine (bind_of_ok (Host.filled?_apply variableName h)).trans ?_
  rw [show (h.environment.lookup variableName).filter (· != "") = none from hgiven]
  exact bind_of_error (by rw [hhost]; rfl)

/-- Without a token in the variable one command is started. -/
theorem resolve_of_started (hgiven : given? h = none) (hhost : host url = .ok name) :
    resolve url h = (outcome (h.ending (invocation name)),
      { h with
        started := h.started ++ [invocation name]
        records := h.records ++ report name (outcome (h.ending (invocation name))) }) := by
  refine (bind_of_ok (Host.filled?_apply variableName h)).trans ?_
  rw [show (h.environment.lookup variableName).filter (· != "") = none from hgiven]
  refine (bind_of_ok (by rw [hhost]; rfl)).trans ?_
  rw [bind_apply, Host.start_apply]
  rcases h.ending (invocation name) with e | cause | f
  · simp only [outcome, report, List.append_nil]
  · cases cause <;> simp [outcome, report] <;> rfl
  · cases hprinted : printed? f with
    | none =>
      simp only [outcome, hprinted, report, List.append_nil]
      rfl
    | some token =>
      simp only [outcome, hprinted, report]
      rfl

theorem host_of_unreadable {s : String} {e : Invalid} (hread : Address.read s.toList = .error e) :
    host (.text s) = .error (.invalid e) := by
  simp only [host, host.named?, hread]
  rfl

theorem host_of_read {s : String} {address : Address}
    (hread : Address.read s.toList = .ok address) :
    host (.text s) = .ok (.text ((address.host?.filter (· != "")).getD s)) := by
  simp only [host, host.named?, hread]
  cases hname : address.host?.filter (· != "") <;> simp [Except.mapError, hname]

theorem keeps_resolve (url : Value) : Leads Host.Keeps (resolve url) := by
  intro h
  cases hgiven : given? h with
  | some token =>
    rw [resolve_of_given url hgiven]
    exact refl_of Host.Keeps h
  | none =>
    cases hhost : host url with
    | error e =>
      rw [resolve_of_unreadable hgiven hhost]
      exact refl_of Host.Keeps h
    | ok name =>
      rw [resolve_of_started hgiven hhost]
      exact ⟨rfl, rfl⟩

/-- A token that is found is not empty. That of the variable is taken as it is, with nothing
started; otherwise one command is started, and its stripped output is the token just if it went
well and printed anything. The search fails if the address cannot be read, if the command is there
but may not or cannot be started, or if something goes wrong around it, as when its output is no
text; a command that is missing or late leaves it without a token. -/
theorem resolve_ends (s : String) (h : Host) :
    let run : Except Fault (Option String) × Host := resolve (.text s) h
    (∀ token, run.1 = .ok (some token) → token ≠ "") ∧
    (∀ token, given? h = some token → run = (.ok (some token), h)) ∧
    (given? h = none →
      (∃ e, Address.read s.toList = .error e ∧ run = (.error (.invalid e), h)) ∨
      ∃ address name records, Address.read s.toList = .ok address ∧
        name = (address.host?.filter (· != "")).getD s ∧
        run.2 = { h with
          started := h.started ++ [invocation (.text name)]
          records := h.records ++ records } ∧
        (∀ token, run.1 = .ok (some token) ↔
          ∃ f, h.ending (invocation (.text name)) = .ok (.ok f) ∧
            f.code = 0 ∧ Text.trim f.output = token ∧ token ≠ "") ∧
        ∀ fault, run.1 = .error fault ↔
          h.ending (invocation (.text name)) = .error fault ∨
          ∃ cause, h.ending (invocation (.text name)) = .ok (.error cause) ∧
            (cause = .forbidden ∨ cause = .failed) ∧ fault = .start cause "glab") := by
  intro run
  refine ⟨?_, fun token hgiven => resolve_of_given _ hgiven, ?_⟩
  · intro token hrun
    cases hgiven : given? h with
    | some found =>
      obtain rfl : found = token := by simpa [run, resolve_of_given _ hgiven] using hrun
      exact ne_empty_of_given? hgiven
    | none =>
      cases hhost : host (.text s) with
      | error e => simp [run, resolve_of_unreadable hgiven hhost] at hrun
      | ok name =>
        simp only [run, resolve_of_started hgiven hhost, outcome_eq_some] at hrun
        obtain ⟨f, -, -, -, hne⟩ := hrun
        exact hne
  · intro hgiven
    cases hread : Address.read s.toList with
    | error e =>
      exact Or.inl ⟨e, rfl, resolve_of_unreadable hgiven (host_of_unreadable hread)⟩
    | ok address =>
      have hrun := resolve_of_started hgiven (host_of_read hread)
      refine Or.inr ⟨address, _, _, rfl, rfl, congrArg Prod.snd hrun, ?_, ?_⟩
      · intro token
        simp only [run, hrun, outcome_eq_some]
      · intro fault
        simp only [run, hrun, outcome_eq_error]

/-- A host with a command that may not be started, as one whose file cannot be executed. -/
def forbiddenHost : Host := { answers := fun _ => .error .forbidden }

/-- The search is to end with a token or with none, yet a command that may not be started is a
fault, and so is an address with an open bracket. -/
theorem resolve_faults :
    (resolve (.text "https://gitlab.com") forbiddenHost : Except Fault (Option String) × Host).1 =
      .error (.start .forbidden "glab") ∧
    (resolve (.text "http://[x") {} : Except Fault (Option String) × Host).1 =
      .error (.invalid .address) := by
  have hread : Address.read "https://gitlab.com".toList =
      .ok ⟨"https".toList, "gitlab.com".toList, [], [], [], []⟩ := by rfl
  have hbad : Address.read "http://[x".toList = .error .address := by rfl
  exact ⟨congrArg Prod.fst (resolve_of_started rfl (host_of_read hread)),
    congrArg Prod.fst (resolve_of_unreadable rfl (host_of_unreadable hbad))⟩

end MergeDecoration.Token
