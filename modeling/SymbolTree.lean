import SymbolTree.KeyMap
import SymbolTree.Text.Blank
import SymbolTree.Text.LowerCase
import SymbolTree.Text.Quoted
import SymbolTree.Name
import SymbolTree.Name.Order
import SymbolTree.SourcePath
import SymbolTree.Json.Writer
import SymbolTree.Json.Reader
import SymbolTree.Record.Value
import SymbolTree.Record.JsonText
import SymbolTree.Settings
import SymbolTree.Collection
import SymbolTree.Forest
import SymbolTree.Resolution
import SymbolTree.Document
import SymbolTree.Settings.Fields
import SymbolTree.Toml.Reader
import SymbolTree.Settings.TomlText
import SymbolTree.RecordFile
import SymbolTree.Registry
import SymbolTree.Disk.Memory
import SymbolTree.Discovery
import SymbolTree.Run
import SymbolTree.CommandLine
import SymbolTree.Main
import SymbolTree.Proofs.KeyMap
import SymbolTree.Proofs.Columns
import SymbolTree.Proofs.Ownership
import SymbolTree.Proofs.Ownership.Moves
import SymbolTree.Proofs.Ownership.Traversal
import SymbolTree.Proofs.Columns.Stages
import SymbolTree.Proofs.Clashes
import SymbolTree.Proofs.Names
import SymbolTree.Proofs.SectionNames
import SymbolTree.Proofs.Nesting
import SymbolTree.Proofs.Ancestry
import SymbolTree.Proofs.Ownership.Linking
import SymbolTree.Proofs.Ownership.Lifting
import SymbolTree.Proofs.Origins
import SymbolTree.Proofs.Filing
import SymbolTree.Proofs.ResolvedForest
import SymbolTree.Proofs.Reports
import SymbolTree.Proofs.Twins
import SymbolTree.Proofs.InsertionOrder
import SymbolTree.Proofs.CanonicalOrder
import SymbolTree.Proofs.Evaluation
import SymbolTree.Proofs.Entries
import SymbolTree.Proofs.ClashAccounting
import SymbolTree.Proofs.NothingLost
import SymbolTree.Proofs.Addresses
import SymbolTree.Proofs.TwinIds
import SymbolTree.Proofs.Views
import SymbolTree.Proofs.Partitions
import SymbolTree.Proofs.RelativeIds
import SymbolTree.Proofs.LiftedClasses
import SymbolTree.Proofs.SourceData
import SymbolTree.Proofs.TiedRecords
import SymbolTree.Proofs.References
import SymbolTree.Proofs.ChildOrder
import SymbolTree.Proofs.AncestorTree
import SymbolTree.Proofs.InheritanceReports
import SymbolTree.Proofs.MergedMembers
import SymbolTree.Proofs.CopiedDocs
import SymbolTree.Proofs.Winners
import SymbolTree.Proofs.KeptRecords
import SymbolTree.Proofs.LookupWinners
import SymbolTree.Proofs.NestedChildren
import SymbolTree.Proofs.SectionGuessing
import SymbolTree.Proofs.Backlinks
import SymbolTree.Proofs.EnclosingClasses
import SymbolTree.Proofs.Redirects
import SymbolTree.Proofs.ShownMembers
import SymbolTree.Proofs.ExtensionOwners
import SymbolTree.Proofs.RedirectTargets
import SymbolTree.Proofs.SectionIds
import SymbolTree.Proofs.MemberTypes
import SymbolTree.Proofs.NodeObjects
import SymbolTree.Proofs.WrittenForms
import SymbolTree.Proofs.RecordObjects
import SymbolTree.Proofs.ParsedNames
import SymbolTree.Proofs.NavigationPaths
import SymbolTree.Proofs.Anchors
import SymbolTree.Proofs.ExtensionAliases
import SymbolTree.Proofs.TotalOrder
import SymbolTree.Proofs.NestedIds
import SymbolTree.Proofs.Boundaries
