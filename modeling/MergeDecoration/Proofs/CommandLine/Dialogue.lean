import MergeDecoration.CommandLine.Init
import MergeDecoration.Proofs.Host.Action

/-!
Dialogues with the user, and the command that sets a repository up by one. Nothing goes out over the
session in a dialogue; files are written by the command alone.
-/
namespace MergeDecoration

open Stateful

/-- Nothing went out over the session. -/
def Host.KeepsSession (h h' : Host) : Prop := h'.session = h.session

instance : IsPreorder Host Host.KeepsSession where
  refl _ := rfl
  trans _ _ _ hfirst hrest := Eq.trans hrest hfirst

theorem Host.keepsSession_of_keeps {α : Type} {x : Action α} (hx : Leads Host.Keeps x) :
    Leads Host.KeepsSession x := hx.mono fun _ _ hkeeps => hkeeps.session

theorem Host.keepsSession_writeText (path : List String) (text : String) :
    Leads Host.KeepsSession (Host.writeText path text) :=
  .bind .get fun _ => .bind (.lift _) fun _ => .modify fun _ => rfl

theorem Remote.keeps_detect : Leads Host.Keeps Remote.detect := by
  refine .bind (Host.keeps_start _) fun outcome => ?_
  split
  · exact .pure _
  · exact .pure _
  · exact .throw _
  · split
    · exact .pure _
    · exact .lift _

namespace CommandLine

theorem keeps_askOnce (question : String) (fallback : Option String) :
    Leads Host.Keeps (askOnce question fallback) := by
  refine .bind (Host.keeps_say question) fun _ => .bind Host.keeps_readLine fun line => ?_
  split
  · exact .pure _
  · exact .pure _

theorem keeps_askUntil (question : String) (fallback : Option String) (fuel : Nat) :
    Leads Host.Keeps (askUntil question fallback fuel) := by
  induction fuel with
  | zero =>
    refine .bind (keeps_askOnce question fallback) fun answer => ?_
    cases answer with
    | some line => exact .pure _
    | none => exact .throw _
  | succ fuel ih =>
    refine .bind (keeps_askOnce question fallback) fun answer => ?_
    cases answer with
    | some line => exact .pure _
    | none => exact ih

theorem keeps_ask (question : String) (fallback : Option String) :
    Leads Host.Keeps (ask question fallback) := .bind .get fun _ => keeps_askUntil _ _ _

theorem keeps_confirmOnce (question : String) (fallback : Bool) :
    Leads Host.Keeps (confirmOnce question fallback) :=
  .bind (Host.keeps_say question) fun _ => .bind Host.keeps_readLine fun _ => .pure _

theorem keeps_confirmUntil (question : String) (fallback : Bool) (fuel : Nat) :
    Leads Host.Keeps (confirmUntil question fallback fuel) := by
  induction fuel with
  | zero =>
    refine .bind (keeps_confirmOnce question fallback) fun answer => ?_
    cases answer with
    | some b => exact .pure _
    | none => exact .throw _
  | succ fuel ih =>
    refine .bind (keeps_confirmOnce question fallback) fun answer => ?_
    cases answer with
    | some b => exact .pure _
    | none => exact .bind (Host.keeps_say _) fun _ => ih

theorem keeps_confirm (question : String) (fallback : Bool) :
    Leads Host.Keeps (confirm question fallback) := .bind .get fun _ => keeps_confirmUntil _ _ _

namespace Init

theorem keeps_chooseProject (given : Option String) : Leads Host.Keeps (chooseProject given) := by
  cases given with
  | some path => exact .pure _
  | none =>
    refine .bind Remote.keeps_detect fun found => ?_
    cases found with
    | some p => exact .bind (Host.keeps_print _) fun _ => .pure _
    | none => exact .bind (keeps_ask _ _) fun _ => .pure _

theorem keepsSession_writeJob : Leads Host.KeepsSession writeJob := by
  refine .bind (Host.keepsSession_of_keeps (keeps_ask _ _)) fun report => ?_
  refine .bind (Host.keepsSession_of_keeps (keeps_ask _ _)) fun stage => ?_
  refine .bind .get fun h => .bind (.lift _) fun _ => ?_
  refine .bind (Host.keepsSession_writeText _ _) fun _ => ?_
  refine .bind (Host.keepsSession_of_keeps (Host.keeps_print _)) fun _ => ?_
  exact Host.keepsSession_of_keeps (Host.keeps_print _)

theorem keepsSession_run (words : List String) : Leads Host.KeepsSession (run words) := by
  refine .bind (.lift _) fun given => ?_
  split
  · exact Host.keepsSession_of_keeps (.bind (Host.keeps_say _) fun _ => .pure _)
  refine .bind (.lift _) fun _ => ?_
  refine .bind (Host.keepsSession_of_keeps (Host.keeps_print _)) fun _ => ?_
  refine .bind (Host.keepsSession_of_keeps (keeps_chooseProject _)) fun place => ?_
  refine .bind (Host.keepsSession_of_keeps (keeps_ask _ _)) fun url => ?_
  refine .bind (Host.keepsSession_of_keeps (keeps_confirm _ _)) fun first => ?_
  refine .bind (Host.keepsSession_of_keeps (keeps_confirm _ _)) fun edit => ?_
  refine .bind (Host.keepsSession_of_keeps (Host.keeps_readText _)) fun existing => ?_
  refine .bind (.lift _) fun text => .bind (Host.keepsSession_writeText _ text) fun _ => ?_
  refine .bind (Host.keepsSession_of_keeps (Host.keeps_print _)) fun _ => ?_
  refine .bind (Host.keepsSession_of_keeps (keeps_confirm _ _)) fun wanted => ?_
  have hend (project : String) : Leads Host.KeepsSession (do
      Host.print "\n[bold green]Setup complete![/bold green]"
      Host.print ("Decorate a merge request with: " ++
        s!"[bold]mrdecor decorate --project {project} --report <json>[/bold]")) :=
    Host.keepsSession_of_keeps (.bind (Host.keeps_print _) fun _ => Host.keeps_print _)
  split
  · exact .bind keepsSession_writeJob fun _ => hend _
  · exact hend _

end Init
end CommandLine
end MergeDecoration
