import PhpHandbook.DocBlock.Shelf
import PhpHandbook.Main
import PhpHandbook.Proofs.ResolverAccord
import PhpHandbook.Source.LineIndex
import PhpHandbook.Proofs.FacetAccord
import PhpHandbook.Proofs.OutlineMap
import PhpHandbook.Proofs.PageAccord
import PhpHandbook.Proofs.Inquiries
import PhpHandbook.Proofs.NameResolution
import PhpHandbook.Proofs.Flattening
import PhpHandbook.Proofs.Walks
import PhpHandbook.Proofs.Lossless
import PhpHandbook.Proofs.Positions
import PhpHandbook.Proofs.Loops
import PhpHandbook.Proofs.ReaderLoops
import PhpHandbook.Proofs.ReadersEnd
import PhpHandbook.Proofs.WithoutSpans
import PhpHandbook.Proofs.Nesting
import PhpHandbook.Proofs.SideBySide
import PhpHandbook.Proofs.Following
import PhpHandbook.Proofs.FollowingMembers
import PhpHandbook.Proofs.AssignedNames
import PhpHandbook.Proofs.BodyStops
import PhpHandbook.Proofs.FollowingValues
import PhpHandbook.Proofs.FollowingBodies
import PhpHandbook.Proofs.FollowingFiles
import PhpHandbook.Proofs.TokensBeside
import PhpHandbook.Proofs.BodyEdits
import PhpHandbook.Proofs.Building
import PhpHandbook.Proofs.References
import PhpHandbook.Proofs.PageFiles
import PhpHandbook.Proofs.WrittenFiles
import PhpHandbook.Proofs.Relexing
import PhpHandbook.Proofs.TypeSpelling
import PhpHandbook.Proofs.TypePrinting
import PhpHandbook.Proofs.TypeFronts
import PhpHandbook.Proofs.TypeRoundTrip
import PhpHandbook.Proofs.Provenance
import PhpHandbook.Proofs.InterfaceClosure
import PhpHandbook.Proofs.PageNesting
import PhpHandbook.Proofs.Heirs
import PhpHandbook.Proofs.Origins
import PhpHandbook.Proofs.TemplateNames
import PhpHandbook.Proofs.TraitRules
import PhpHandbook.Proofs.UnresolvedTypes
import PhpHandbook.Proofs.InterfaceList
import PhpHandbook.Proofs.ResolvedNames
import PhpHandbook.Proofs.FilePlaces
import PhpHandbook.Proofs.Attachments
import PhpHandbook.Proofs.CloseTags
import PhpHandbook.Proofs.WrittenTokens
import PhpHandbook.Proofs.TypeNames
import PhpHandbook.Proofs.HintShapes
import PhpHandbook.Proofs.PrintedHints
import PhpHandbook.Proofs.SingleClass
import PhpHandbook.Proofs.HintPositions
import PhpHandbook.Proofs.EqualsSigns
import PhpHandbook.Proofs.SpacedEquals
import PhpHandbook.Proofs.TypeEnds
import PhpHandbook.Proofs.StringLiterals
import PhpHandbook.Proofs.AdjoinedTexts
import PhpHandbook.Proofs.TakenLexemes
import PhpHandbook.Proofs.TypesInFront
import PhpHandbook.Proofs.OperandGrouping
import PhpHandbook.Proofs.Declarators
import PhpHandbook.Proofs.CursorMotions
import PhpHandbook.Proofs.TypeCursor
import PhpHandbook.Proofs.CommentBlocks
import PhpHandbook.Proofs.SortedTags
import PhpHandbook.Proofs.RecasedComments
import PhpHandbook.Proofs.TagLetters
import PhpHandbook.Proofs.SharedDocuments
import PhpHandbook.Proofs.SharedAnchors
import PhpHandbook.Proofs.ShownTypes
import PhpHandbook.Proofs.FullNames
import PhpHandbook.Proofs.RelativeLinks
import PhpHandbook.Proofs.TypeReferences
import PhpHandbook.Proofs.LineNumbers
import PhpHandbook.Proofs.Heredocs
import PhpHandbook.Proofs.MethodOrder
import PhpHandbook.Proofs.ListedChapters
