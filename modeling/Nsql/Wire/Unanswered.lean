/-
  File:      Nsql/Wire/Unanswered.lean
  Subject:   How requests are written that the server does not answer.

  A request for something that the server cannot do is refused in one way if it is well written,
  and in another if it is not; so the forms of all of them have to be known.
-/
import Nsql.Wire.Params

namespace Nsql.Form

open Slot (need may)

/-! ## 1. Questions about a place -/

/-- A question about a place that has no fields of its own. -/
def atPlace (name : String) : Form := blend name [] [placePart, progressPart, resultPart]

/-- A question about a place that is answered at once. -/
def atPlaceAtOnce (name : String) : Form := blend name [] [placePart, progressPart]

/-- The question where a name is used. -/
def references : Form :=
  blend "ReferenceParams"
    [need "context" (record "ReferenceContext" [need "includeDeclaration" bool])]
    [placePart, progressPart, resultPart]

/-- One signature of a function. -/
def signature : Form :=
  record "SignatureInformation"
    [need "label" string, may "documentation" documentation,
     may "parameters" (list (record "ParameterInformation"
       [need "label" (choice "ParameterLabel" [string, couple nat32]),
        may "documentation" documentation])),
     may "activeParameter" nat32]

/-- The question for the signature of a function. -/
def signatureHelp : Form :=
  blend "SignatureHelpParams"
    [may "context" (record "SignatureHelpContext"
      [need "triggerKind" int32, may "triggerCharacter" string, need "isRetrigger" bool,
       may "activeSignatureHelp" (record "SignatureHelp"
         [need "signatures" (list signature), may "activeSignature" nat32,
          may "activeParameter" nat32])])]
    [placePart, progressPart]

/-- The wish to rename something. -/
def rename : Form := blend "RenameParams" [need "newName" string] [placePart, progressPart]

/-- The question whether something can be renamed. -/
def prepareRename : Form := record "TextDocumentPositionParams" placePart

/-! ## 2. Questions about a document -/

/-- A question about a document that has the given further fields. -/
def onDocument (name : String) (fields : List Slot) : Form :=
  blend name (need "textDocument" document :: fields) [progressPart, resultPart]

/-- A question about a document that is answered at once. -/
def onDocumentAtOnce (name : String) (fields : List Slot) : Form :=
  blend name (need "textDocument" document :: fields) [progressPart]

/-- The field that says which stretch a question is about. -/
def stretch : Slot := need "range" Range.form

/-- How a document is to be formatted. -/
def formatting : Slot :=
  need "options" (extended "FormattingOptions"
    [need "tabSize" nat32, need "insertSpaces" bool, flag "trimTrailingWhitespace",
     flag "insertFinalNewline", flag "trimFinalNewlines"]
    (choice "FormattingProperty" [bool, int32, string]))

/-- The wish to format what has just been typed. -/
def typeFormatting : Form :=
  blend "DocumentOnTypeFormattingParams" [need "ch" string, formatting] [placePart]

/-- The field that says why actions are asked for. -/
def actionContext : Slot :=
  need "context" (record "CodeActionContext"
    [need "diagnostics" (list diagnostic), may "only" (list string), may "triggerKind" int32])

/-- An action on code. -/
def action : Form :=
  record "CodeAction"
    [need "title" string, may "kind" string, may "diagnostics" (list diagnostic),
     may "edit" workspaceEdit, may "command" command, flag "isPreferred",
     may "disabled" (record "CodeActionDisabled" [need "reason" string]), may "data" any]

/-- A color. -/
def color : Form :=
  record "Color" [need "red" number, need "green" number, need "blue" number, need "alpha" number]

/-- A command shown between the lines. -/
def lens : Form := record "CodeLens" [stretch, may "command" command, may "data" any]

/-- A link in a document. -/
def link : Form :=
  record "DocumentLink" [stretch, may "target" uri, may "tooltip" string, may "data" any]

/-- The field that says where a program has stopped. -/
def stopContext : Slot :=
  need "context" (record "InlineValueContext"
    [need "frameId" int32, need "stoppedLocation" Range.form])

/-- A choice between a string and marked-up text. -/
def tooltip (name : String) : Form :=
  choice name [string, record "MarkupContent" [need "kind" markup, need "value" string]]

/-- A hint shown inside a line. -/
def hint : Form :=
  record "InlayHint"
    [need "position" Position.form,
     need "label" (choice "InlayHintLabel" [string, list (record "InlayHintLabelPart"
       [need "value" string, may "tooltip" (tooltip "InlayHintLabelPartTooltip"),
        may "location" location, may "command" command])]),
     may "kind" int32, may "textEdits" (list textEdit), may "tooltip" (tooltip "InlayHintTooltip"),
     flag "paddingLeft", flag "paddingRight", may "data" any]

/-- The wish to be asked before a document is saved. -/
def saving : Form :=
  record "WillSaveTextDocumentParams" [need "textDocument" document, need "reason" int32]

/-! ## 3. Questions about a workspace -/

/-- A function in a hierarchy of calls. -/
def callItem : Form :=
  record "CallHierarchyItem"
    [need "name" string, need "kind" int32, may "tags" (list int32), may "detail" string,
     need "uri" uri, stretch, need "selectionRange" Range.form, may "data" any]

/-- A type in a hierarchy of types. -/
def typeItem : Form :=
  record "TypeHierarchyItem"
    [need "name" string, need "kind" int32, may "tags" int32, may "detail" string,
     need "uri" uri, stretch, need "selectionRange" Range.form, may "data" any]

/-- A question about an item of a hierarchy. -/
def onItem (name : String) (item : Form) : Form :=
  blend name [need "item" item] [progressPart, resultPart]

/-- The question for symbols of a workspace. -/
def symbols : Form := blend "WorkspaceSymbolParams" [need "query" string] [resultPart, progressPart]

/-- A symbol of a workspace. -/
def workspaceSymbol : Form :=
  record "WorkspaceSymbol"
    [need "name" string, need "kind" int32, may "tags" (list int32), may "containerName" string,
     need "location" (choice "OneOf" [location, record "WorkspaceLocation" [need "uri" uri]]),
     may "data" any]

/-- The question for the findings about a workspace. -/
def workspaceDiagnostic : Form :=
  blend "WorkspaceDiagnosticParams"
    [may "identifier" string,
     need "previousResultIds" (list (record "PreviousResultId"
       [need "uri" uri, need "value" string]))]
    [progressPart, resultPart]

/-- Something that is about to happen to files; `file` are the fields of one of them. -/
def onFiles (name fileName : String) (file : List Slot) : Form :=
  record name [need "files" (list (record fileName file))]

/-! ## 4. All of them -/

/-- The requests that the server does not answer, each with its form. -/
def unanswered : List (String × Form) :=
  [("textDocument/declaration", atPlace "GotoDefinitionParams"),
   ("textDocument/definition", atPlace "GotoDefinitionParams"),
   ("textDocument/typeDefinition", atPlace "GotoDefinitionParams"),
   ("textDocument/implementation", atPlace "GotoDefinitionParams"),
   ("textDocument/references", references),
   ("textDocument/documentHighlight", atPlace "DocumentHighlightParams"),
   ("textDocument/moniker", atPlace "MonikerParams"),
   ("textDocument/linkedEditingRange", atPlaceAtOnce "LinkedEditingRangeParams"),
   ("textDocument/prepareCallHierarchy", atPlaceAtOnce "CallHierarchyPrepareParams"),
   ("textDocument/prepareTypeHierarchy", atPlaceAtOnce "TypeHierarchyPrepareParams"),
   ("textDocument/signatureHelp", signatureHelp),
   ("textDocument/rename", rename),
   ("textDocument/prepareRename", prepareRename),
   ("textDocument/documentLink", onDocument "DocumentLinkParams" []),
   ("textDocument/codeLens", onDocument "CodeLensParams" []),
   ("textDocument/foldingRange", onDocument "FoldingRangeParams" []),
   ("textDocument/documentSymbol", onDocument "DocumentSymbolParams" []),
   ("textDocument/documentColor", onDocument "DocumentColorParams" []),
   ("textDocument/semanticTokens/full", onDocument "SemanticTokensParams" []),
   ("textDocument/semanticTokens/full/delta",
     onDocument "SemanticTokensDeltaParams" [need "previousResultId" string]),
   ("textDocument/semanticTokens/range", onDocument "SemanticTokensRangeParams" [stretch]),
   ("textDocument/selectionRange",
     onDocument "SelectionRangeParams" [need "positions" (list Position.form)]),
   ("textDocument/diagnostic",
     onDocument "DocumentDiagnosticParams"
       [may "identifier" string, may "previousResultId" string]),
   ("textDocument/codeAction", onDocument "CodeActionParams" [stretch, actionContext]),
   ("textDocument/colorPresentation",
     onDocument "ColorPresentationParams" [need "color" color, stretch]),
   ("textDocument/inlayHint", onDocumentAtOnce "InlayHintParams" [stretch]),
   ("textDocument/inlineValue", onDocumentAtOnce "InlineValueParams" [stretch, stopContext]),
   ("textDocument/formatting", onDocumentAtOnce "DocumentFormattingParams" [formatting]),
   ("textDocument/rangeFormatting",
     onDocumentAtOnce "DocumentRangeFormattingParams" [stretch, formatting]),
   ("textDocument/onTypeFormatting", typeFormatting),
   ("textDocument/willSaveWaitUntil", saving),
   ("documentLink/resolve", link),
   ("codeLens/resolve", lens),
   ("codeAction/resolve", action),
   ("inlayHint/resolve", hint),
   ("callHierarchy/incomingCalls", onItem "CallHierarchyIncomingCallsParams" callItem),
   ("callHierarchy/outgoingCalls", onItem "CallHierarchyOutgoingCallsParams" callItem),
   ("typeHierarchy/supertypes", onItem "TypeHierarchySupertypesParams" typeItem),
   ("typeHierarchy/subtypes", onItem "TypeHierarchySubtypesParams" typeItem),
   ("workspace/symbol", symbols),
   ("workspaceSymbol/resolve", workspaceSymbol),
   ("workspace/diagnostic", workspaceDiagnostic),
   ("workspace/willCreateFiles", onFiles "CreateFilesParams" "FileCreate" [need "uri" string]),
   ("workspace/willRenameFiles",
     onFiles "RenameFilesParams" "FileRename" [need "oldUri" string, need "newUri" string]),
   ("workspace/willDeleteFiles", onFiles "DeleteFilesParams" "FileDelete" [need "uri" string])]

end Nsql.Form
