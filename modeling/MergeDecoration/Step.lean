/-!
The steps of a decoration run that can fail, with the message each failure gets.
-/
namespace MergeDecoration

inductive Step
  | readNumber
  | readMergeRequest
  | readUser
  | readCommits
  | readDiscussions
  | createIssueNote
  | flagDiscussion
  | resolveDiscussion
  | editSummary
  | createSummary
  | deleteSummary
  | pushStatus
  deriving DecidableEq

def Step.message : Step → String
  | .readNumber => "Could not parse Merge Request ID"
  | .readMergeRequest => "Could not retrieve Merge Request details"
  | .readUser => "Could not retrieve current user details"
  | .readCommits => "Could not retrieve commit details for Merge Request"
  | .readDiscussions => "Could not retrieve Merge Request discussions"
  | .createIssueNote => "Could not submit commit comment to Gitlab"
  | .flagDiscussion => "Could not add note to Merge Request discussion"
  | .resolveDiscussion => "Could not resolve Merge Request discussion"
  | .editSummary => "Could not edit summary note"
  | .createSummary => "Could not submit summary comment to Gitlab"
  | .deleteSummary => "Could not delete outdated summary note"
  | .pushStatus => "Could not update pipeline status in Gitlab"

end MergeDecoration
