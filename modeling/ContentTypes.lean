import ContentTypes.Main
import ContentTypes.Proofs.Path.Join
import ContentTypes.Proofs.Path.Parent
import ContentTypes.Proofs.Path.Undotted
import ContentTypes.Proofs.Path.Ending
import ContentTypes.Proofs.FileTree.Reading
import ContentTypes.Proofs.FileTree.Growth
import ContentTypes.Proofs.FileTree.Agreement
import ContentTypes.Proofs.FileTree.Parents
import ContentTypes.Proofs.FileTree.Children
import ContentTypes.Proofs.FileTree.Revisiting
import ContentTypes.Proofs.Declaration.Name
import ContentTypes.Proofs.Declaration.Registry
import ContentTypes.Proofs.Declaration.Registration
import ContentTypes.Proofs.Declaration.Rendered
import ContentTypes.Proofs.Declaration.References
import ContentTypes.Proofs.Declaration.Unit
import ContentTypes.Proofs.Declaration.Distinct
import ContentTypes.Proofs.Declaration.Closed
import ContentTypes.Proofs.Declaration.EntityImports
import ContentTypes.Proofs.Declaration.FileName
import ContentTypes.Proofs.Project.Discovery
import ContentTypes.Proofs.Project.Planning
import ContentTypes.Proofs.Project.BrokenSchemas
import ContentTypes.Proofs.Project.Writing
import ContentTypes.Proofs.Project.Confinement
import ContentTypes.Proofs.Project.Rediscovery
import ContentTypes.Proofs.Project.Rerun
import ContentTypes.Proofs.Project.UpToDate
import ContentTypes.Proofs.Command.CleanCheck
import ContentTypes.Proofs.Project.ReferencedFiles
import ContentTypes.Proofs.Assoc
import ContentTypes.Proofs.Settings.Field
import ContentTypes.Proofs.Settings.Merging
import ContentTypes.Proofs.Settings.Decoding
import ContentTypes.Proofs.Settings.Layers
import ContentTypes.Proofs.Settings.Guessing
import ContentTypes.Proofs.Settings.Variables
import ContentTypes.Proofs.Settings.Written
import ContentTypes.Proofs.Settings.SaveLoad
import ContentTypes.Proofs.Toml.WrittenDocument
import ContentTypes.Proofs.Toml.WrittenString
import ContentTypes.Proofs.FileTree.Receiving
import ContentTypes.Proofs.Project.Effect
import ContentTypes.Proofs.Project.Prediction
import ContentTypes.Proofs.Declaration.Passwords
import ContentTypes.Proofs.Declaration.Reordering
import ContentTypes.Proofs.Declaration.Key
import ContentTypes.Proofs.Declaration.LineBreaks
import ContentTypes.Proofs.Declaration.Lines
import ContentTypes.Proofs.Json.Record
import ContentTypes.Proofs.Json.Grammar
import ContentTypes.Proofs.Json.Lexemes
import ContentTypes.Proofs.Json.Values
import ContentTypes.Proofs.Json.Skipping
import ContentTypes.Proofs.Json.RecordReading
import ContentTypes.Proofs.Json.RecordFields
import ContentTypes.Proofs.Schema.Document
import ContentTypes.Proofs.Schema.AttributeFields
import ContentTypes.Proofs.Schema.DocumentShape
import ContentTypes.Proofs.Schema.AttributeOrder
import ContentTypes.Proofs.Declaration.PropertyNames
import ContentTypes.Proofs.Declaration.Quoted
import ContentTypes.Proofs.Declaration.PascalCase
import ContentTypes.Proofs.Declaration.Usable
import ContentTypes.Proofs.Text.ByteOrder
import ContentTypes.Proofs.Project.Layout
import ContentTypes.Proofs.Text.JoinedLines
import ContentTypes.Proofs.Text.SplitLines
import ContentTypes.Proofs.Diff.Script
import ContentTypes.Proofs.Diff.Settled
import ContentTypes.Proofs.Diff.Tiling
import ContentTypes.Proofs.Diff.LineChanges
import ContentTypes.Proofs.Diff.Applying
import ContentTypes.Proofs.Diff.Cutting
import ContentTypes.Proofs.Diff.Recording
import ContentTypes.Proofs.Diff.Ranges
import ContentTypes.Proofs.Diff.PatchText
import ContentTypes.Proofs.Diff.Difference
