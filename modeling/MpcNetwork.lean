import MpcNetwork.Node.Assets.Ids
import MpcNetwork.Node.Assets.ColdZones
import MpcNetwork.Node.Assets.Cleanup
import MpcNetwork.Node.Requests.Heights
import MpcNetwork.Node.Requests.LeaderAgreement
import MpcNetwork.Contract.AllowedImages
import MpcNetwork.Contract.Pending
import MpcNetwork.Contract.SuccessVotes
import MpcNetwork.Contract.TeeCheck
import MpcNetwork.Contract.OrphanedMigrations
import MpcNetwork.Contract.Quorum
import MpcNetwork.Contract.AttestedCallers
import MpcNetwork.Contract.Updates
import MpcNetwork.Threshold.EchoBroadcast.Totality
import MpcNetwork.Tee.Binding
import MpcNetwork.Node.Network.Delivery
import MpcNetwork.Node.Providers.PeerMessages
import MpcNetwork.Node.Providers.LeaderAssets
import MpcNetwork.Threshold.Dkg.Integrity
import MpcNetwork.Node.KeyEvents.ResharingSafety
import MpcNetwork.Node.KeyEvents.Order
import MpcNetwork.Threshold.Executor
import MpcNetwork.Threshold.Strangers
import MpcNetwork.Threshold.EchoBroadcast.Announcements
import MpcNetwork.Node.Network.Handshake
import MpcNetwork.Threshold.Interpolation
import MpcNetwork.Threshold.Ckd
import MpcNetwork.Threshold.OtBasedEcdsa.Signing
