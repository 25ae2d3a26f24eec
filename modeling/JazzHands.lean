import JazzHands.Netblock.Hierarchy
import JazzHands.Netblock.SingleAddress
import JazzHands.Netblock.Universe
import JazzHands.NetworkRange.ProposedRange
import JazzHands.NetworkRange.UpdateFrame
import JazzHands.AccountPassword.SetPasswords
import JazzHands.Mkpasswdfiles.SudoersRules
import JazzHands.Cache.FromAncestor
import JazzHands.Cache.DeviceMoves
import JazzHands.Dns.Cname
import JazzHands.Dns.Duplicates
import JazzHands.Dns.Enabled
import JazzHands.Dns.Addresses
import JazzHands.Dns.ChangesLogged
import JazzHands.Dns.MovedRecords
import JazzHands.Hotpants.Lockout
import JazzHands.Hotpants.TimeWindow
import JazzHands.Hotpants.Resync
import JazzHands.Hotpants.TokenUtils
import JazzHands.Cache.NetblockHierRuns
import JazzHands.Approval.Approve
import JazzHands.Service.StaysReachable
import JazzHands.Service.VersionCollectionsRuns
import JazzHands.Realm.Runs
import JazzHands.Zonegen.NoChangeLost
import JazzHands.AutoAc.ReportsRight
import JazzHands.Property.OnlyValid
import JazzHands.Property.StaysValid
import JazzHands.Layer3.Assigned
import JazzHands.Collection.ByTypeRuns
import JazzHands.Cache.Synchronize
import JazzHands.SchemaSupport.Undone
import JazzHands.SchemaSupport.ChangesNoticed
import JazzHands.Hotpants.TokenSync
import JazzHands.TableSync.Skipped
import JazzHands.LvManip.Condemned
import JazzHands.TableSync.Mirrored
import JazzHands.Authorization.Granted
import JazzHands.Collection.PerObjectRuns
import JazzHands.Collection.MemberLimits
import JazzHands.LogicalVolume.ScsiIdRuns
import JazzHands.Hotpants.RadiusSynced
import JazzHands.Service.DirectLinked
import JazzHands.X509.Shared
import JazzHands.LogicalVolume.FilesystemMirror
import JazzHands.AuthToken.Sessions
import JazzHands.Hotpants.Hotp
import JazzHands.Dns.AllDomains
import JazzHands.Dns.FindDomain
import JazzHands.Netblock.Manip
import JazzHands.LvManip.DeleteLvHier
import JazzHands.SchemaSupport.RelationDiff
import JazzHands.Mkpasswdfiles.HostSymlinks
import JazzHands.DeviceManip.SwapAddresses
import JazzHands.Dhcpgen.Layer2File
import JazzHands.Component.HierRemoved
import JazzHands.Component.SlotsMigrated
import JazzHands.Allocation.UnallocatedEnds
import JazzHands.LogicalPort.RemoveMlagPeer
import JazzHands.Person.PickLogin
import JazzHands.Person.UnixUid
import JazzHands.PortUtils.ConfigureLayer1
import JazzHands.Vault.TokenCache
import JazzHands.DeviceManip.RetireDevices
