import TextScore.Command.FileTree
import TextScore.Main
import TextScore.Proofs.Coupling
import TextScore.Proofs.Traversal
import TextScore.Proofs.Upkeep
import TextScore.Proofs.Effects
import TextScore.Proofs.Runs
import TextScore.Proofs.Log
import TextScore.Proofs.Forest
import TextScore.Proofs.Soundness
import TextScore.Proofs.Nodes
import TextScore.Proofs.Budget
import TextScore.Proofs.Onsets
import TextScore.Proofs.Twins
import TextScore.Proofs.Repetition
import TextScore.Proofs.TwinRuns
import TextScore.Proofs.Tracks
import TextScore.Proofs.Placement
import TextScore.Proofs.Unrolling
import TextScore.Proofs.Interchange
import TextScore.Proofs.FileReader
import TextScore.Proofs.FileRoundTrip
import TextScore.Proofs.Contracts
import TextScore.Proofs.Custody
import TextScore.Proofs.Bodies
import TextScore.Proofs.Records
import TextScore.Proofs.Stewardship
import TextScore.Proofs.Reading
import TextScore.Proofs.ArenaSteps
import TextScore.Proofs.Ranges
import TextScore.Proofs.Stretching
import TextScore.Proofs.Levels
import TextScore.Proofs.Lengths
import TextScore.Proofs.Fermatas
import TextScore.Proofs.Groups
import TextScore.Proofs.Branches
import TextScore.Proofs.Rehearsal
import TextScore.Proofs.Crescendos
import TextScore.Proofs.Excerpts
import TextScore.Proofs.Bystanders
import TextScore.Proofs.Echoes
import TextScore.Proofs.Depths
import TextScore.Proofs.Gasless
import TextScore.Proofs.Thrift
import TextScore.Proofs.Order
import TextScore.Proofs.Invocations
import TextScore.Proofs.Tasks
import TextScore.Proofs.Halting
import TextScore.Proofs.ScoreRoundTrip
import TextScore.Proofs.Places
import TextScore.Proofs.Acceptance
import TextScore.Proofs.Breakpoints
import TextScore.Proofs.Advances
import TextScore.Proofs.Tuplets
import TextScore.Proofs.Origins
import TextScore.Proofs.Checking
import TextScore.Proofs.CheckedStaging
import TextScore.Proofs.CheckedTimelines
import TextScore.Proofs.CheckedNotes
import TextScore.Proofs.CheckedItems
import TextScore.Proofs.CheckedRuns
import TextScore.Proofs.Tempi
import TextScore.Proofs.CheckedFiles
import TextScore.Proofs.Arithmetic
import TextScore.Proofs.Domains
import TextScore.Proofs.Passages
import TextScore.Proofs.KeyMaps
import TextScore.Proofs.Octaves
import TextScore.Proofs.Versions
import TextScore.Proofs.Renditions
import TextScore.Proofs.OctaveRanges
import TextScore.Proofs.Substitution
import TextScore.Proofs.Entries
import TextScore.Proofs.Graces
import TextScore.Proofs.Recitals
import TextScore.Proofs.Decorations
import TextScore.Proofs.Ties
import TextScore.Proofs.Arpeggios
import TextScore.Proofs.Conducting
import TextScore.Proofs.Steering
import TextScore.Proofs.Endings
import TextScore.Proofs.Balance
import TextScore.Proofs.Stripping
import TextScore.Proofs.Locality
import TextScore.Proofs.LocalItems
import TextScore.Proofs.Concatenation
import TextScore.Proofs.Curves
import TextScore.Proofs.Stretches
import TextScore.Proofs.Units
import TextScore.Proofs.Restoring
import TextScore.Proofs.Progress
import TextScore.Proofs.Boundless
