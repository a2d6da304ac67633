import UserFederation.Http.Playback
import UserFederation.Host.Simulation
import UserFederation.Main
import UserFederation.Run.Script
import UserFederation.Server.Mutation
import UserFederation.Proofs.Transcript
import UserFederation.Server.Operation
import UserFederation.Proofs.Course
import UserFederation.Proofs.DryRun
import UserFederation.Proofs.Convergence
import UserFederation.Proofs.Becoming
import UserFederation.Proofs.Interruption
import UserFederation.Proofs.Resumption
import UserFederation.Proofs.Rejection
import UserFederation.Proofs.Scope
import UserFederation.Proofs.Noninterference
import UserFederation.Proofs.Credential
import UserFederation.Proofs.Satisfaction
import UserFederation.Proofs.Rearrangement
import UserFederation.Proofs.Foretelling
import UserFederation.Proofs.Recognition
import UserFederation.Proofs.Deletion
import UserFederation.Proofs.Roundtrip
import UserFederation.Proofs.Payload
import UserFederation.Proofs.Permutation
import UserFederation.Proofs.FollowUp
import UserFederation.Proofs.Addition
import UserFederation.Proofs.Lossless
import UserFederation.Proofs.Redaction
import UserFederation.Proofs.Collection
import UserFederation.Proofs.Adjustment
import UserFederation.Proofs.Overlap
import UserFederation.Proofs.Provision
import UserFederation.Proofs.Display
import UserFederation.Proofs.Reporting
import UserFederation.Proofs.Mapperless
import UserFederation.Proofs.Removal
import UserFederation.Proofs.Journal
import UserFederation.Proofs.WriteBack
import UserFederation.Proofs.Identity
import UserFederation.Proofs.Spelling
import UserFederation.Proofs.Literals
import UserFederation.Proofs.Targets
import UserFederation.Proofs.Addressing
import UserFederation.Proofs.Merging
import UserFederation.Proofs.Realms
import UserFederation.Proofs.Secrets
import UserFederation.Proofs.Chronology
