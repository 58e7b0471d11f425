import RustyImap.ToolRefinement

/-!
# Folder names

`FolderName::new` (`rimap-core/src/folder_name.rs`), the check that every folder
name of a client goes through.  The byte tests of the source are stated on the
characters: a byte below 128 is a character of its own in UTF-8.
-/

namespace RustyImap.FolderName

/-- `is_rejected_display_codepoint`. -/
def isRejectedDisplayCodepoint (c : Char) : Bool :=
  let n := c.toNat
  (0x202A ≤ n && n ≤ 0x202E) || (0x2066 ≤ n && n ≤ 0x2069) || n == 0x200B || n == 0x200C ||
    n == 0x200D || n == 0x2060 || n == 0xFEFF || (0xE0000 ≤ n && n ≤ 0xE007F)

def isControl (c : Char) : Bool := (1 ≤ c.toNat && c.toNat ≤ 0x1F) || c.toNat == 0x7F

/-- The loop over the bytes: the first NUL or control byte decides. -/
def checkBytes : List Char → Except String Unit
  | [] => .ok ()
  | c :: rest =>
      if c.toNat = 0 then .error "folder name contains NUL byte"
      else if isControl c then .error "folder name contains control character"
      else checkBytes rest

def isTraversal (segment : List Char) : Bool := segment == ['.'] || segment == ['.', '.']

/-- `validate`, with the `reason` of a refusal. -/
def validate (raw : String) : Except String Unit :=
  if raw.isEmpty then .error "folder name must not be empty"
  else if (trim raw.toList).isEmpty then .error "folder name must not be whitespace-only"
  else if 255 < utf8Len raw then .error "folder name exceeds 255-byte limit"
  else
    match checkBytes raw.toList with
    | .error reason => .error reason
    | .ok () =>
        if (raw.toList.splitOn '/').any isTraversal then
          .error "folder name contains path traversal segment"
        else if raw.toList.any isRejectedDisplayCodepoint then
          .error "folder name contains disallowed Unicode character"
        else .ok ()

def isValid (raw : String) : Bool := (validate raw).isOk

end RustyImap.FolderName
