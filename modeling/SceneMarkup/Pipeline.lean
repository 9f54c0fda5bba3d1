/-
  SceneMarkup/Pipeline.lean --- a document fetched, compiled, improved and packaged.

  WHAT THIS FILE IS FOR.  Fetching, improving and packaging are the work of
  collaborators, who act in any monad and may fail.  A failure to fetch or to package
  ends the run; a failure to improve leaves the output as it was, with a remark.
-/
import SceneMarkup.Compile
import SceneMarkup.DesignLink

set_option autoImplicit false

namespace SceneMarkup

/-! ## Collaborators -/

/-- Why a collaborator failed. -/
inductive CollaboratorError where
  | network (text : String)
  | unauthorized (status : Nat)
  /-- too many requests; after so many seconds another may be made -/
  | rateLimited (retryAfter : Option Nat)
  | notFound
  | notImproved (text : String)
  | notPackaged (text : String)
  deriving DecidableEq, Repr, Inhabited

namespace CollaboratorError

/-- The failure that the status of a response means. -/
def ofStatus (status : Nat) : CollaboratorError :=
  match status with
  | 401 => .unauthorized 401
  | 403 => .unauthorized 403
  | 404 => .notFound
  | 429 => .rateLimited none
  | other => .network ("unexpected status " ++ toString other)

/-- The wording of a failure. -/
def message : CollaboratorError → String
  | .network text => "network error: " ++ text
  | .unauthorized status => "authentication failed (status " ++ toString status ++ ")"
  | .rateLimited none => "rate limited"
  | .rateLimited (some seconds) => "rate limited, retry after " ++ toString seconds ++ "s"
  | .notFound => "document not found"
  | .notImproved text => "optimizer failed: " ++ text
  | .notPackaged text => "export failed: " ++ text

/-- Whether another attempt could succeed. -/
def isTransient : CollaboratorError → Bool
  | .network _ => true
  | .rateLimited _ => true
  | _ => false

end CollaboratorError

/-- What packaging makes. -/
inductive Artifact where
  | archive (bytes : ByteArray)
  /-- the place of a copy -/
  | remote (location : String)
  deriving Inhabited

/-- Markup and a stylesheet that take the place of others. -/
structure Refinement where
  markup : List Markup
  stylesheet : Stylesheet
  deriving Repr, Inhabited

/-- Those who fetch a document by its key, improve output, and package it under a name. -/
structure Collaborators (m : Type → Type) where
  fetch : String → m (Except CollaboratorError String)
  improve : Option (List Markup → Stylesheet → m (Except CollaboratorError Refinement))
  package : Option (List Markup → Stylesheet → String → m (Except CollaboratorError Artifact))

/-! ## Runs -/

/-- Why a run failed. -/
inductive PipelineError where
  | collaborator (error : CollaboratorError)
  | compile (error : CompileError)
  /-- a link that leads to no file -/
  | noFile (link : String)
  deriving DecidableEq, Repr, Inhabited

/-- The wording of a failed run. -/
def PipelineError.message : PipelineError → String
  | .collaborator error => error.message
  | .compile error => error.message
  | .noFile link => "no file key in URL: " ++ link

/-- What a run yields. -/
structure PipelineOutput where
  output : Output
  artifact : Option Artifact
  deriving Inhabited

namespace Collaborators

variable {m : Type → Type} [Monad m]

/-- Output with what an attempt to improve it made. -/
def improved (out : Output) : Except CollaboratorError Refinement → Output
  | .ok refined => { out with markup := refined.markup, stylesheet := refined.stylesheet }
  | .error error =>
      { out with
        diagnostics := out.diagnostics ++
          [⟨.info, none, "optimization skipped: " ++ error.message⟩] }

/-- Improves output where there is someone to do it. -/
def improveOutput (c : Collaborators m) (out : Output) : m Output :=
  match c.improve with
  | none => pure out
  | some improve => return improved out (← improve out.markup out.stylesheet)

/-- Packages output where there is someone to do it. -/
def packageOutput (c : Collaborators m) (out : Output) : m (Except PipelineError PipelineOutput) :=
  match c.package with
  | none => pure (.ok ⟨out, none⟩)
  | some package => do
      match ← package out.markup out.stylesheet out.componentName with
      | .ok artifact => return .ok ⟨out, some artifact⟩
      | .error error => return .error (.collaborator error)

/-- Fetches the document of a key, compiles, improves and packages it. -/
def run (c : Collaborators m) (options : Options) (key : String) :
    m (Except PipelineError PipelineOutput) := do
  match ← c.fetch key with
  | .error error => return .error (.collaborator error)
  | .ok text =>
      match compileText text options with
      | .error error => return .error (.compile error)
      | .ok out => c.packageOutput (← c.improveOutput out)

/-- Runs for the file of a link. The node that the link names is compiled alone, unless the options
name one. -/
def runLink (c : Collaborators m) (options : Options) (link : String) :
    m (Except PipelineError PipelineOutput) :=
  match DesignLink.fileKey? link with
  | none => pure (.error (.noFile link))
  | some key =>
      c.run { options with rootNode := options.rootNode <|> DesignLink.nodeId? link } key

end Collaborators

end SceneMarkup
