import Sarena.Lib.Run
import Sarena.Lib.Prog
import Sarena.Lib.KeyMap
import Sarena.Lib.Channel
import Sarena.Lib.Actor
import Sarena.Infra.MacAddress
import Sarena.Endpoint.IdAllocator
import Sarena.Endpoint.Manager
import Sarena.Endpoint.IndexSoundness
import Sarena.Endpoint.LiveIds
import Sarena.Endpoint.Directory
import Sarena.Endpoint.DirectoryNames
import Sarena.Endpoint.Regenerate
import Sarena.Endpoint.Disk
import Sarena.Endpoint.Restore
import Sarena.Endpoint.CrashSafety
import Sarena.Endpoint.Shutdown
import Sarena.Endpoint.Drain
import Sarena.Endpoint.RestoreOld
import Sarena.Endpoint.DurableDeletion
import Sarena.Endpoint.IdLease
import Sarena.Endpoint.Lookup
import Sarena.Endpoint.Publish
import Sarena.Endpoint.Synchronize
import Sarena.Endpoint.RestoreExact
import Sarena.Endpoint.RestoreEntries
import Sarena.Services.Endpoint
import Sarena.Services.CreateUniqueness
import Sarena.Services.CreateAtomic
import Sarena.Ipam.Bitmap
import Sarena.Ipam.BitmapRun
import Sarena.Ipam.HostScope
import Sarena.Ipam.Interval
import Sarena.Ipam.Service
import Sarena.Ipam.Uniqueness
import Sarena.Ipam.OwnerMap
import Sarena.Ipam.Arithmetic
import Sarena.Ipam.Dump
import Sarena.Ipam.Exclusion
import Sarena.Ipam.Rollback
import Sarena.Lib.Bytes
import Sarena.Lib.OnesComplement
import Sarena.Lib.Shares
import Sarena.Lib.Utf8
import Sarena.Lib.Fields
import Sarena.Lib.KernelMap
import Sarena.Ebpf.EndpointKey
import Sarena.Loader.LxcEntries
import Sarena.Ebpf.Metrics
import Sarena.Ebpf.Programs
import Sarena.Ebpf.Arp
import Sarena.Ebpf.Delivery
import Sarena.Ebpf.Traffic
import Sarena.DataPlane.Frame
import Sarena.DataPlane.Rewrite
import Sarena.DataPlane.RewriteChecksum
import Sarena.DataPlane.Soft
import Sarena.DataPlane.Conntrack
import Sarena.DataPlane.FramePanic
import Sarena.DataPlane.RouteTable
import Sarena.DataPlane.RouteLookup
import Sarena.DataPlane.RouteSelection
import Sarena.DataPlane.DnatTuple
import Sarena.DataPlane.NatReply
import Sarena.Loader.Pin
import Sarena.Loader.Reconcile
import Sarena.Loader.AddRemove
import Sarena.Loader.Exactness
import Sarena.Loader.Inverse
import Sarena.Loader.Retry
import Sarena.Loader.LxcMap
import Sarena.Loader.Tcx
import Sarena.Loader.TcxPins
import Sarena.Loader.Actor
import Sarena.Controller.Runner
import Sarena.Controller.Manager
import Sarena.Controller.NoLostUpdate
import Sarena.Controller.NoLateRun
import Sarena.Controller.StopHook
import Sarena.Controller.Status
import Sarena.Controller.Registry
import Sarena.Controller.Statuses
import Sarena.Controller.Backoff
import Sarena.Daemon.Restart
import Sarena.Api.Server
import Sarena.Api.Client
import Sarena.Api.Wire
import Sarena.Api.AtMostOnce
import Sarena.Cni.Plugin
import Sarena.Lib.Rely
import Sarena.Cni.Kernel
import Sarena.Cni.Ownership
import Sarena.Cni.Conservation
import Sarena.Cni.Wiring
import Sarena.Cni.Pods
import Sarena.TestFramework.Writer
import Sarena.TestFramework.Reader
import Sarena.TestFramework.ReaderSafety
import Sarena.TestFramework.Suite
import Sarena.TestFramework.Assert
import Sarena.Ebpf.LocalDelivery
