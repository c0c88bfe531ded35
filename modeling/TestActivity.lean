import TestActivity.Lib.Arm
import TestActivity.Lib.Blocks
import TestActivity.Lib.Buffer
import TestActivity.Lib.CString
import TestActivity.Lib.Descriptors
import TestActivity.Lib.FirstMatch
import TestActivity.Lib.Lines
import TestActivity.Lib.LinkedList
import TestActivity.Lib.Masks
import TestActivity.Lib.Memory
import TestActivity.Lib.MultiMap
import TestActivity.Lib.Outcome
import TestActivity.Lib.Rows
import TestActivity.Lib.Scan
import TestActivity.Lib.Transfer
import TestActivity.Lib.Transition
import TestActivity.Su.Io
import TestActivity.Su.Request
import TestActivity.Su.Toolbox
import TestActivity.Su.Relay
import TestActivity.Su.HandleRequest
import TestActivity.Su.RunServer
import TestActivity.Su.Rtdaemon
import TestActivity.Su.Bounds
import TestActivity.Su.Processes
import TestActivity.Su.XData
import TestActivity.Su.Jar
import TestActivity.Su.Accept
import TestActivity.Su.Reply
import TestActivity.Su.System
import TestActivity.Su.ServerLoop
import TestActivity.Su.RtdaemonLoop
import TestActivity.Su.Authencation
import TestActivity.Su.Uninstall
import TestActivity.Su.Inotify
import TestActivity.Su.Reaper
import TestActivity.Su.Handover
import TestActivity.Su.UserList
import TestActivity.Su.TempServer
import TestActivity.Su.Silence
import TestActivity.Su.Setenv
import TestActivity.Su.Exports
import TestActivity.Su.Chattr
import TestActivity.Su.Dd.Operands
import TestActivity.Su.Dd.Out
import TestActivity.Su.Dd.Copy
import TestActivity.Su.Dd.Run
import TestActivity.Su.Dd.Overrun
import TestActivity.Su.Dd.Records
import TestActivity.Inject.Ptrace
import TestActivity.Inject.Call
import TestActivity.Inject.Payload
import TestActivity.Inject.Process
import TestActivity.Inject.Resume
import TestActivity.Inject.FindPid
import TestActivity.Sedroid.Patch
import TestActivity.Sedroid.Apply
import TestActivity.Sedroid.Setup
import TestActivity.Sedroid.Load
import TestActivity.CrossProcess.ServiceManager
import TestActivity.CrossProcess.Binders
import TestActivity.CrossProcess.Recovery
import TestActivity.CrossProcess.Lookup
import TestActivity.Zero.MyBitmap
import TestActivity.Aidl.Names
import TestActivity.Aidl.Check
import TestActivity.Aidl.Preprocess
import TestActivity.Aidl.Files
import TestActivity.Aidl.FrontEnd
import TestActivity.Aidl.Generate
import TestActivity.Aidl.Java
import TestActivity.Aidl.Marshal
import TestActivity.Aidl.Stub
import TestActivity.Aidl.Frame
import TestActivity.Aidl.Transact
import TestActivity.Aidl.Driver
import TestActivity.Aidl.Loader
import TestActivity.Aidl.Proxy
import TestActivity.Aidl.Scopes
import TestActivity.Aidl.Tokens
import TestActivity.Aidl.Compile
import TestActivity.Aidl.Calls
import TestActivity.Aidl.Sessions
