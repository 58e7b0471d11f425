import Mathlib.Data.List.Basic

/-!
# Tool identity (`rimap-core/src/tool.rs`)

`ToolName` is the capability granularity of the posture matrix: a superset of
the MCP tool names, because three tools gate a sub-feature on its own
(`search.advanced_query`, `fetch_message.include_html`,
`create_draft.include_html`).
-/

namespace RustyImap

/-- Identifier for a dispatchable capability, in declaration order. -/
inductive ToolName where
  | listFolders
  | search
  | searchAdvanced
  | fetchMessage
  | fetchMessageHtml
  | listAttachments
  | downloadAttachment
  | exportMessages
  | markRead
  | markUnread
  | flag
  | unflag
  | addLabel
  | removeLabel
  | listLabels
  | moveMessage
  | createDraft
  | createDraftHtml
  | sendEmail
  | forward
  | deleteMessage
  | expunge
  | createFolder
  | renameFolder
  | deleteFolder
  | useAccount
  | listAccounts
deriving DecidableEq, Repr

namespace ToolName

/-- Canonical name used in config overrides, on the wire and in the audit log. -/
def asStr : ToolName → String
  | listFolders => "list_folders"
  | search => "search"
  | searchAdvanced => "search.advanced_query"
  | fetchMessage => "fetch_message"
  | fetchMessageHtml => "fetch_message.include_html"
  | listAttachments => "list_attachments"
  | downloadAttachment => "download_attachment"
  | exportMessages => "export_messages"
  | markRead => "mark_read"
  | markUnread => "mark_unread"
  | flag => "flag"
  | unflag => "unflag"
  | addLabel => "add_label"
  | removeLabel => "remove_label"
  | listLabels => "list_labels"
  | moveMessage => "move_message"
  | createDraft => "create_draft"
  | createDraftHtml => "create_draft.include_html"
  | sendEmail => "send_email"
  | forward => "forward"
  | deleteMessage => "delete_message"
  | expunge => "expunge"
  | createFolder => "create_folder"
  | renameFolder => "rename_folder"
  | deleteFolder => "delete_folder"
  | useAccount => "use_account"
  | listAccounts => "list_accounts"

/-- Every variant, in declaration order (`EnumIter`). -/
def all : List ToolName :=
  [listFolders, search, searchAdvanced, fetchMessage, fetchMessageHtml,
   listAttachments, downloadAttachment, exportMessages, markRead, markUnread,
   flag, unflag, addLabel, removeLabel, listLabels, moveMessage, createDraft,
   createDraftHtml, sendEmail, forward, deleteMessage, expunge, createFolder,
   renameFolder, deleteFolder, useAccount, listAccounts]

@[simp] theorem mem_all (tool : ToolName) : tool ∈ all := by
  cases tool <;> decide

theorem nodup_all : all.Nodup := by decide

/-- Infrastructure tools bypass posture, rate limits and breakers. -/
def isInfrastructure : ToolName → Bool
  | useAccount | listAccounts => true
  | _ => false

/-- `ToolName::from_str`: the first variant whose name is `s`. -/
def fromStr (s : String) : Option ToolName :=
  all.find? fun tool => tool.asStr == s

/-- Names are pairwise distinct, so parsing a canonical name is unambiguous. -/
theorem asStr_injective : Function.Injective asStr := by
  have hall : ∀ a ∈ all, ∀ b ∈ all, a.asStr = b.asStr → a = b := by decide
  intro a b hab
  exact hall a (mem_all a) b (mem_all b) hab

theorem fromStr_eq_some {s : String} {tool : ToolName} :
    fromStr s = some tool ↔ tool.asStr = s := by
  constructor
  · intro h
    simpa using List.find?_some h
  · intro h
    subst h
    cases tool <;> decide

@[simp] theorem fromStr_asStr (tool : ToolName) : fromStr tool.asStr = some tool :=
  fromStr_eq_some.mpr rfl

end ToolName

end RustyImap
