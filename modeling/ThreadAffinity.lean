import ThreadAffinity.Command
import ThreadAffinity.Excerpt
import ThreadAffinity.Proofs.CallSites
import ThreadAffinity.Proofs.Dispatch
import ThreadAffinity.Proofs.Recheck
import ThreadAffinity.Settings.Document
import ThreadAffinity.Source.Builder
import ThreadAffinity.Proofs.Obligations
import ThreadAffinity.Proofs.DeclarationOrder
import ThreadAffinity.Proofs.OwnFirst
import ThreadAffinity.Proofs.PartSearch
import ThreadAffinity.Proofs.PartWalk
import ThreadAffinity.Proofs.Splitting
import ThreadAffinity.Proofs.BuildLineage
import ThreadAffinity.Proofs.Conflicts
import ThreadAffinity.Proofs.Independence
import ThreadAffinity.Proofs.NewBuild
import ThreadAffinity.Proofs.EveryMember
import ThreadAffinity.Proofs.LeftOut
import ThreadAffinity.Proofs.WiderPolicy
import ThreadAffinity.Proofs.Json.Reading
import ThreadAffinity.Proofs.Json.Scalars
import ThreadAffinity.Proofs.Json.Shapes
import ThreadAffinity.Proofs.SourceDocument
import ThreadAffinity.Proofs.Advisories
import ThreadAffinity.Proofs.PublishedTags
import ThreadAffinity.Proofs.SharedStore
import ThreadAffinity.Proofs.Listings
import ThreadAffinity.Proofs.VisitOrder
import ThreadAffinity.Proofs.LoopWarnings
import ThreadAffinity.Proofs.Expressions
import ThreadAffinity.Proofs.RepeatedMembers
import ThreadAffinity.Proofs.CallTally
import ThreadAffinity.Proofs.EditedUses
import ThreadAffinity.Proofs.Reported
import ThreadAffinity.Proofs.Bridges
import ThreadAffinity.Proofs.Arguments
import ThreadAffinity.Proofs.SettingsDocument
import ThreadAffinity.Proofs.Segments
import ThreadAffinity.Proofs.EditDistance
import ThreadAffinity.Proofs.Suggestions
import ThreadAffinity.Proofs.SearchRules
