import TreeMatch.Main
import TreeMatch.Proofs.Captures
import TreeMatch.Proofs.Matching
import TreeMatch.Proofs.Node
import TreeMatch.Proofs.Places
import TreeMatch.Proofs.Search
import TreeMatch.Proofs.Positions
import TreeMatch.Proofs.Meaning
import TreeMatch.Proofs.Faults
import TreeMatch.Proofs.Rejection
import TreeMatch.Proofs.Extractions
import TreeMatch.Proofs.Collected
import TreeMatch.Proofs.Contexts
import TreeMatch.Proofs.Stops
import TreeMatch.Proofs.Course
import TreeMatch.Proofs.Calls
import TreeMatch.Proofs.Diagnosis
import TreeMatch.Proofs.Conservation
import TreeMatch.Proofs.FirstMatch
import TreeMatch.Proofs.Containment
import TreeMatch.Proofs.JsonTrees
import TreeMatch.Proofs.Requests
import TreeMatch.Proofs.Stages
import TreeMatch.Proofs.Success
import TreeMatch.Proofs.Skeleton
import TreeMatch.Proofs.LiteralDocuments
import TreeMatch.Proofs.Renaming
import TreeMatch.Proofs.Agreement
import TreeMatch.Proofs.Extension
import TreeMatch.Proofs.Subtrees
import TreeMatch.Proofs.EntryOrder
import TreeMatch.Proofs.Streams
import TreeMatch.Proofs.LiteralOrder
import TreeMatch.Proofs.PlaceNames
import TreeMatch.Proofs.Writes
import TreeMatch.Proofs.OptionOrder
import TreeMatch.Proofs.Comparison
