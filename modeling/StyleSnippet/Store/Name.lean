import StyleSnippet.Store.Error

/-!
# Names of snippets

A stored snippet is a file, and its name is the file's name: not empty, not one of the two names
for directories, and without a character that would lead elsewhere.
-/

set_option autoImplicit false

namespace StyleSnippet

/-- The ending of the names of snippets. -/
def snippetExtension : Text := ".css"

/-- The characters that no name holds. -/
def separators : List Char := ['/', '\\', '\x00']

/-- Whether a name is a plain file name. -/
def isPlainName (name : Text) : Bool :=
  !name.isEmpty && name ≠ "." && name ≠ ".." && name.all fun c => c ∉ separators

/-- A name, if it is a plain file name. -/
def plainName (name : Text) : Except StoreError Text :=
  if isPlainName name then .ok name else .error (.invalidName name)

/-- The file name for a snippet that is to be saved under a name: trimmed, and with the extension
unless it is there. -/
def snippetFileName (name : Text) : Except StoreError Text :=
  let name := Text.trim name
  if name.isEmpty || name = snippetExtension then .error (.invalidName name)
  else if Text.endsWith snippetExtension name then .ok name
  else .ok (name ++ snippetExtension)

end StyleSnippet
