import MergeDecoration.Program

/-!
Values that GitLab sends, as users, notes, discussions and merge requests, and what is sent to it.
A payload that lacks a field it needs, or has the wrong kind where a field is looked up, is
refused.
-/
namespace MergeDecoration.Gitlab

private def fieldOr (entries : List (Value × Value)) (name : String) (fallback : Value) : Value :=
  (Value.field? entries name).getD fallback

def readUser (v : Value) : Except Fault User := do
  let es ← (v.orElse (.map [])).mapOperand
  return ⟨fieldOr es "username" (.text ""), Value.field es "id"⟩

def readNote (v : Value) : Except Fault Note := do
  let id ← v.require "id"
  let es ← v.mapOperand
  return {
    id
    author := ← readUser (Value.field es "author")
    body := (Value.field es "body").orElse (.text "")
    resolvable := (Value.field es "resolvable").holds
    system := (Value.field es "system").holds
    resolved := (Value.field es "resolved").holds }

def readDiscussion (v : Value) : Except Fault Discussion := do
  let id ← v.require "id"
  let es ← v.mapOperand
  let notes ← ((Value.field es "notes").orElse (.list [])).items
  return ⟨id, ← notes.mapM readNote⟩

def readMergeRequest (v : Value) : Except Fault MergeRequest := do
  let es ← v.mapOperand
  let refs := (Value.field es "diff_refs").orElse (.map [])
  let iid ← v.require "iid"
  let sourceProject ← v.require "source_project_id"
  let targetProject ← v.require "target_project_id"
  let refs ← refs.mapOperand
  return {
    iid, sourceProject, targetProject
    baseSha := fieldOr refs "base_sha" (.text "")
    startSha := fieldOr refs "start_sha" (.text "")
    headSha := fieldOr refs "head_sha" (.text "")
    webUrl := fieldOr es "web_url" (.text "") }

def writeNote : NewNote → List (String × Value)
  | .general body => [("body", .text body)]
  | .line n =>
    [("body", .text n.body),
      ("position[position_type]", .text "text"),
      ("position[base_sha]", n.baseSha),
      ("position[start_sha]", n.startSha),
      ("position[head_sha]", n.headSha),
      ("position[old_path]", n.oldPath),
      ("position[new_path]", n.newPath),
      ("position[new_line]", n.newLine)]

def writeStatus (s : PipelineStatus) : List (String × Value) :=
  let optional (name : String) (v : Value) := if v.isNull then [] else [(name, v)]
  [("state", .text s.state), ("name", .text s.name), ("description", .text s.description),
    ("target_url", .text s.targetUrl)] ++
    optional "coverage" s.coverage ++ optional "pipeline_id" s.pipeline

end MergeDecoration.Gitlab
