import StyleSnippet.Css.Scope
import StyleSnippet.Css.Layout
import StyleSnippet.Yaml.Writer
import StyleSnippet.Yaml.Reader
import StyleSnippet.Settings.Same
import StyleSnippet.Schema.Decode
import StyleSnippet.Schema.Encode
import StyleSnippet.Text.Quoted
import StyleSnippet.Document.SettingsBlock
import StyleSnippet.Document.Cell
import StyleSnippet.Document.Banner
import StyleSnippet.Document.Mention
import StyleSnippet.Document.Body
import StyleSnippet.Document.Read
import StyleSnippet.Document.Write
import StyleSnippet.Outline.Section
import StyleSnippet.Outline.Edit
import StyleSnippet.Outline.Add
import StyleSnippet.Store.Directory
import StyleSnippet.Session.Basic
import StyleSnippet.Proofs.Document.CellRoundTrip
import StyleSnippet.Proofs.Document.Owners
import StyleSnippet.Proofs.Document.Reopened
import StyleSnippet.Proofs.Document.Updated
import StyleSnippet.Proofs.Store.Shelf
import StyleSnippet.Proofs.Session.Saving
import StyleSnippet.Proofs.Session.Renaming
import StyleSnippet.Proofs.Session.Editing
import StyleSnippet.Proofs.Outline.Placing
import StyleSnippet.Proofs.Outline.Steps
import StyleSnippet.Proofs.Css.Confinement
import StyleSnippet.Proofs.Css.Body
import StyleSnippet.Proofs.Css.Places
import StyleSnippet.Proofs.Css.Recorded
import StyleSnippet.Proofs.Css.Agreement
import StyleSnippet.Proofs.Css.AtSign
import StyleSnippet.Proofs.Css.Joined
import StyleSnippet.Proofs.Css.Indentation
import StyleSnippet.Proofs.Document.SharedCells
import StyleSnippet.Proofs.Document.SharedPassages
import StyleSnippet.Proofs.Document.Confined
import StyleSnippet.Proofs.Document.Mentioned
import StyleSnippet.Proofs.Settings.Lookup
import StyleSnippet.Proofs.Schema.Culprit
import StyleSnippet.Proofs.Schema.Kept
