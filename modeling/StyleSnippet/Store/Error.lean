import StyleSnippet.Text.Quoted

/-!
# What can go wrong in a store

A store refuses names that are no plain file names, and an operation of the file system can fail.
-/

set_option autoImplicit false

namespace StyleSnippet

/-- Why a store does not do what it was asked for. -/
inductive StoreError
  /-- The name is no plain file name. -/
  | invalidName (name : Text)
  /-- The file system failed. -/
  | io
  deriving DecidableEq, Repr

namespace StoreError

/-- What went wrong, in words. -/
def text : StoreError → Text
  | invalidName name => "invalid snippet name: " ++ Text.quoted name
  | io => "I/O error"

end StoreError

end StyleSnippet
