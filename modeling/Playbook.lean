import Playbook.Session.Execution
import Playbook.Settings.Reading
import Playbook.Settings.Schema
import Playbook.Proofs.Graph.Edges
import Playbook.Proofs.Graph.Sorting
import Playbook.Proofs.Graph.Building
import Playbook.Proofs.Session.Moves
import Playbook.Proofs.Session.Outcome
import Playbook.Proofs.Session.Nesting
import Playbook.Proofs.Session.Coherence
import Playbook.Proofs.Session.Dependencies
import Playbook.Proofs.Plan.Order
import Playbook.Proofs.Plan.Steps
import Playbook.Proofs.Session.Guards
import Playbook.Proofs.Graph.Anchoring
import Playbook.Proofs.Session.Invocation
import Playbook.Proofs.Session.Restoration
import Playbook.Proofs.Plan.Pipeline
import Playbook.Proofs.Plan.Facts
import Playbook.Proofs.Plan.Merging
import Playbook.Proofs.Session.Persistence
import Playbook.Proofs.Session.Repetition
import Playbook.Proofs.Session.Writing
import Playbook.Proofs.Plan.Bindings
import Playbook.Proofs.Session.Lexical
import Playbook.Proofs.Session.Mirror
import Playbook.Proofs.Session.Structured
import Playbook.Proofs.Session.Scoping
import Playbook.Proofs.Session.Registration
import Playbook.Proofs.Session.Tracing
import Playbook.Proofs.Session.Story
import Playbook.Proofs.Session.Telling
import Playbook.Proofs.Session.Membership
import Playbook.Proofs.Session.Accumulation
import Playbook.Proofs.Plan.Instantiation
import Playbook.Proofs.Plan.Passes
import Playbook.Proofs.Plan.Replanning
import Playbook.Proofs.Plan.Distinct
import Playbook.Proofs.Session.Conduct
import Playbook.Proofs.Plan.Silence
import Playbook.Proofs.Session.Isolation
import Playbook.Proofs.Session.Numbering
import Playbook.Proofs.Plan.Emission
import Playbook.Proofs.Plan.Confinement
import Playbook.Proofs.Plan.Chains
import Playbook.Proofs.Graph.Insertion
import Playbook.Proofs.Graph.Draining
import Playbook.Proofs.Graph.Releasing
import Playbook.Proofs.Graph.Ties
import Playbook.Proofs.Session.Congruence
import Playbook.Proofs.Plan.Keeping
import Playbook.Proofs.Session.Grounding
import Playbook.Proofs.Session.Leaving
import Playbook.Proofs.Session.Indexing
import Playbook.Proofs.Session.Presence
import Playbook.Proofs.Graph.Acceptance
import Playbook.Proofs.Session.Consistency
import Playbook.Proofs.Plan.Rooting
import Playbook.Proofs.Plan.Deduplication
import Playbook.Proofs.Session.Conditions
import Playbook.Proofs.Session.Rejection
import Playbook.Proofs.Session.Renaming
import Playbook.Proofs.Plan.Filling
import Playbook.Proofs.Plan.Retrying
import Playbook.Proofs.Session.Populating
import Playbook.Proofs.Session.Siblings
import Playbook.Proofs.Plan.Fields
import Playbook.Proofs.Session.Admission
import Playbook.Proofs.Session.Delivery
import Playbook.Proofs.Plan.Labels
