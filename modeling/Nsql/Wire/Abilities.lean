/-
  File:      Nsql/Wire/Abilities.lean
  Subject:   What a client says it can do.

  A client describes itself in great detail. Four facts matter to the server (`ClientAbilities`),
  but a description that is not well written anywhere is refused as a whole, so that its form has
  to be known to the last field.
-/
import Nsql.Wire.Edit

namespace Nsql

namespace Form

open Slot (need may late)

/-! ## 1. Fields that come again and again -/

/-- A flag. -/
def flag (name : String) : Slot := may name bool

/-- The flag of a client that lets the server register for something. -/
def registration : Slot := flag "dynamicRegistration"

/-- A record with only that flag. -/
def registering : Form := record "DynamicRegistrationClientCapabilities" [registration]

/-- A record of a client that can be asked to refresh something; `subject` is what. -/
def refreshing (subject : String) : Form :=
  record (subject ++ "WorkspaceClientCapabilities") [flag "refreshSupport"]

/-- A record that lists what can be left open until it is asked for. -/
def resolving (name : String) : Form := record name [need "properties" (list string)]

/-- Which tags are known. Some clients only say that they know of tags at all. -/
def tagSupport : Form
  | _, .bool true => .ok (.ofMembers [("valueSet", .arr [])])
  | _, .bool false => .ok .null
  | m, v => record "TagSupport" [need "valueSet" (list int32)] { m with arrival := .sent } v

/-- Which kinds of symbols are known. -/
def symbolKinds : Form := record "SymbolKindCapability" [may "valueSet" (list int32)]

/-! ## 2. The workspace -/

/-- What a client can do with edits of many documents. -/
def workspaceEditAbilities : Form :=
  record "WorkspaceEditClientCapabilities"
    [flag "documentChanges",
     may "resourceOperations" (list (word ["create", "rename", "delete"])),
     may "failureHandling" (word ["abort", "transactional", "textOnlyTransactional", "undo"]),
     flag "normalizesLineEndings",
     may "changeAnnotationSupport" (record "ChangeAnnotationWorkspaceEditClientCapabilities"
       [flag "groupsOnLabel"])]

/-- What a client can do with its workspace. -/
def workspaceAbilities : Form :=
  record "WorkspaceClientCapabilities"
    [flag "applyEdit",
     may "workspaceEdit" workspaceEditAbilities,
     may "didChangeConfiguration" registering,
     may "didChangeWatchedFiles" (record "DidChangeWatchedFilesClientCapabilities"
       [registration, flag "relativePatternSupport"]),
     may "symbol" (record "WorkspaceSymbolClientCapabilities"
       [registration, may "symbolKind" symbolKinds, late "tagSupport" tagSupport,
        may "resolveSupport" (resolving "WorkspaceSymbolResolveSupportCapability")]),
     may "executeCommand" registering,
     flag "workspaceFolders",
     flag "configuration",
     may "semanticTokens" (refreshing "SemanticTokens"),
     may "codeLens" (refreshing "CodeLens"),
     may "fileOperations" (record "WorkspaceFileOperationsClientCapabilities"
       [registration, flag "didCreate", flag "willCreate", flag "didRename", flag "willRename",
        flag "didDelete", flag "willDelete"]),
     may "inlineValue" (refreshing "InlineValue"),
     may "inlayHint" (refreshing "InlayHint"),
     may "diagnostic" (refreshing "Diagnostic")]

/-! ## 3. Documents -/

/-- What a client can do with a completion item. -/
def completionItemAbilities : Form :=
  record "CompletionItemCapability"
    [flag "snippetSupport", flag "commitCharactersSupport",
     may "documentationFormat" (list markup), flag "deprecatedSupport", flag "preselectSupport",
     late "tagSupport" tagSupport, flag "insertReplaceSupport",
     may "resolveSupport" (resolving "CompletionItemCapabilityResolveSupport"),
     may "insertTextModeSupport" (record "InsertTextModeSupport"
       [need "valueSet" (list int32)]),
     flag "labelDetailsSupport"]

/-- What a client can do with completion. -/
def completionAbilities : Form :=
  record "CompletionClientCapabilities"
    [registration, may "completionItem" completionItemAbilities,
     may "completionItemKind" (record "CompletionItemKindCapability"
       [may "valueSet" (list int32)]),
     flag "contextSupport", may "insertTextMode" int32,
     may "completionList" (record "CompletionListCapability"
       [may "itemDefaults" (list string)])]

/-- What a client can do with the signatures of functions. -/
def signatureAbilities : Form :=
  record "SignatureHelpClientCapabilities"
    [registration,
     may "signatureInformation" (record "SignatureInformationSettings"
       [may "documentationFormat" (list markup),
        may "parameterInformation" (record "ParameterInformationSettings"
          [flag "labelOffsetSupport"]),
        flag "activeParameterSupport"]),
     flag "contextSupport"]

/-- What a client can do with places to go to. -/
def gotoAbilities : Form := record "GotoCapability" [registration, flag "linkSupport"]

/-- What a client can do with actions on code. -/
def actionAbilities : Form :=
  record "CodeActionClientCapabilities"
    [registration,
     may "codeActionLiteralSupport" (record "CodeActionLiteralSupport"
       [need "codeActionKind" (record "CodeActionKindLiteralSupport"
         [need "valueSet" (list string)])]),
     flag "isPreferredSupport", flag "disabledSupport", flag "dataSupport",
     may "resolveSupport" (resolving "CodeActionCapabilityResolveSupport"),
     flag "honorsChangeAnnotations"]

/-- What a client can do with published diagnostics. -/
def publishingAbilities : Form :=
  record "PublishDiagnosticsClientCapabilities"
    [flag "relatedInformation", late "tagSupport" tagSupport, flag "versionSupport",
     flag "codeDescriptionSupport", flag "dataSupport"]

/-- What a client can do with parts of a document that can be folded. -/
def foldingAbilities : Form :=
  record "FoldingRangeClientCapabilities"
    [registration, may "rangeLimit" nat32, flag "lineFoldingOnly",
     may "foldingRangeKind" (record "FoldingRangeKindCapability"
       [may "valueSet" (list (word ["comment", "imports", "region"]))]),
     may "foldingRange" (record "FoldingRangeCapability" [flag "collapsedText"])]

/-- What a client can do with the meaning of words. -/
def semanticAbilities : Form :=
  record "SemanticTokensClientCapabilities"
    [registration,
     need "requests" (record "SemanticTokensClientCapabilitiesRequests"
       [flag "range",
        may "full" (choice "SemanticTokensFullOptions"
          [bool, blend "SemanticTokensFullOptions" [flag "delta"] []])]),
     need "tokenTypes" (list string), need "tokenModifiers" (list string),
     need "formats" (list string),
     flag "overlappingTokenSupport", flag "multilineTokenSupport", flag "serverCancelSupport",
     flag "augmentsSyntaxTokens"]

/-- What a client can do with a document. -/
def documentAbilities : Form :=
  record "TextDocumentClientCapabilities"
    [may "synchronization" (record "TextDocumentSyncClientCapabilities"
       [registration, flag "willSave", flag "willSaveWaitUntil", flag "didSave"]),
     may "completion" completionAbilities,
     may "hover" (record "HoverClientCapabilities"
       [registration, may "contentFormat" (list markup)]),
     may "signatureHelp" signatureAbilities,
     may "references" registering,
     may "documentHighlight" registering,
     may "documentSymbol" (record "DocumentSymbolClientCapabilities"
       [registration, may "symbolKind" symbolKinds, flag "hierarchicalDocumentSymbolSupport",
        late "tagSupport" tagSupport]),
     may "formatting" registering,
     may "rangeFormatting" registering,
     may "onTypeFormatting" registering,
     may "declaration" gotoAbilities,
     may "definition" gotoAbilities,
     may "typeDefinition" gotoAbilities,
     may "implementation" gotoAbilities,
     may "codeAction" actionAbilities,
     may "codeLens" registering,
     may "documentLink" (record "DocumentLinkClientCapabilities"
       [registration, flag "tooltipSupport"]),
     may "colorProvider" registering,
     may "rename" (record "RenameClientCapabilities"
       [registration, flag "prepareSupport", may "prepareSupportDefaultBehavior" int32,
        flag "honorsChangeAnnotations"]),
     may "publishDiagnostics" publishingAbilities,
     may "foldingRange" foldingAbilities,
     may "selectionRange" (record "SelectionRangeClientCapabilities" [registration]),
     may "linkedEditingRange" registering,
     may "callHierarchy" registering,
     may "semanticTokens" semanticAbilities,
     may "moniker" registering,
     may "typeHierarchy" registering,
     may "inlineValue" registering,
     may "inlayHint" (record "InlayHintClientCapabilities"
       [registration,
        may "resolveSupport" (resolving "InlayHintResolveClientCapabilities")]),
     may "diagnostic" (record "DiagnosticClientCapabilities"
       [registration, flag "relatedDocumentSupport"])]

/-! ## 4. The rest -/

/-- What a client can do with its window. -/
def windowAbilities : Form :=
  record "WindowClientCapabilities"
    [flag "workDoneProgress",
     may "showMessage" (record "ShowMessageRequestClientCapabilities"
       [may "messageActionItem" (record "MessageActionItemCapabilities"
         [flag "additionalPropertiesSupport"])]),
     may "showDocument" (record "ShowDocumentClientCapabilities" [need "support" bool])]

/-- What a client can do in general. -/
def generalAbilities : Form :=
  record "GeneralClientCapabilities"
    [may "regularExpressions" (record "RegularExpressionsClientCapabilities"
       [need "engine" string, may "version" string]),
     may "markdown" (record "MarkdownClientCapabilities"
       [need "parser" string, may "version" string, may "allowedTags" (list string)]),
     may "staleRequestSupport" (record "StaleRequestSupportClientCapabilities"
       [need "cancel" bool, need "retryOnContentModified" (list string)]),
     may "positionEncodings" (list string)]

/-- What a client can do. -/
def abilities : Form :=
  record "ClientCapabilities"
    [may "workspace" workspaceAbilities, may "textDocument" documentAbilities,
     may "window" windowAbilities, may "general" generalAbilities, may "experimental" any]

end Form

/-! ## 5. What matters -/

/-- What the client can do, as far as the server cares. -/
structure ClientAbilities where
  /-- It answers questions for settings. -/
  configuration : Bool := false
  workspaceFolders : Bool := false
  relatedInformation : Bool := false
  /-- It lets the server ask to be told of new settings. -/
  dynamicConfiguration : Bool := false
  deriving DecidableEq, Repr

/-- The abilities that a value of their form stands for; what is absent is not there. -/
def ClientAbilities.ofJson (v : Json) : ClientAbilities :=
  let workspace := v.member "workspace"
  let publishing := (v.member "textDocument").member "publishDiagnostics"
  { configuration := (workspace.member "configuration").asBool
    workspaceFolders := (workspace.member "workspaceFolders").asBool
    relatedInformation := (publishing.member "relatedInformation").asBool
    dynamicConfiguration :=
      ((workspace.member "didChangeConfiguration").member "dynamicRegistration").asBool }

/-- What the client says it can do. -/
def ClientAbilities.decode : Json → Json.Decoded ClientAbilities := Form.abilities.decode ofJson

end Nsql
