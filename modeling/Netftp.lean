import Netftp.ObjectStore
import Netftp.Client
import Netftp.Path
import Netftp.Minio.Driver
import Netftp.Minio.Lookup
import Netftp.Minio.Objects
import Netftp.Minio.DeleteDir
import Netftp.Minio.Reachable
import Netftp.Server.MinioDriver
import Netftp.Server.Lookup
import Netftp.Minio.Commute
import Netftp.Minio.View
