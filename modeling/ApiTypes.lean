import ApiTypes.CommandLine.World
import ApiTypes.Fixture.Suite
import ApiTypes.Main
import ApiTypes.Proofs.StaticMeaning
import ApiTypes.Proofs.Generation
import ApiTypes.Proofs.Strictness
import ApiTypes.Proofs.CodecForm
import ApiTypes.Proofs.DirectShape
import ApiTypes.Proofs.NormalForm
import ApiTypes.Proofs.NormalNodes
import ApiTypes.Proofs.Declarations
import ApiTypes.Proofs.MergedNames
import ApiTypes.Proofs.DistinctKeys
import ApiTypes.Proofs.PatchedMembers
import ApiTypes.Proofs.KeywordContents
import ApiTypes.Proofs.TextReading
import ApiTypes.Proofs.PlainSchema
import ApiTypes.Proofs.AnnotatedValues
import ApiTypes.Proofs.Annotations
import ApiTypes.Proofs.SchemaGrammar
import ApiTypes.Proofs.PatchedDeclarations
import ApiTypes.Proofs.SchemaRoundTrip
import ApiTypes.Proofs.TidySchemas
import ApiTypes.Proofs.NormalizedDocuments
import ApiTypes.Proofs.CompactText
import ApiTypes.Proofs.PrintedSchemas
import ApiTypes.Proofs.FileFrames
import ApiTypes.Proofs.Runs
import ApiTypes.Proofs.Paths
import ApiTypes.Proofs.PatchLaws
import ApiTypes.Proofs.PatchedPaths
import ApiTypes.Proofs.FirstMisfit
import ApiTypes.Proofs.NullableTypes
import ApiTypes.Proofs.NormalTexts
import ApiTypes.Proofs.Composition
import ApiTypes.Proofs.Diagnostics
import ApiTypes.Proofs.IdentityFilter
import ApiTypes.Proofs.LiteralUnions
import ApiTypes.Proofs.SanitizedNames
import ApiTypes.Proofs.JsonGrammar
import ApiTypes.Proofs.ValueEnds
import ApiTypes.Proofs.ReadScalars
import ApiTypes.Proofs.ReadEntries
import ApiTypes.Proofs.ReadValues
import ApiTypes.Proofs.FixtureParts
import ApiTypes.Proofs.FixtureTexts
import ApiTypes.Proofs.Verdicts
